import Lox.Proofs.Binding.Places
import Lox.Proofs.Evaluation.Moments
import Lox.Proofs.Grammar.Exactness
import Lox.Proofs.Grammar.Placement
import Lox.Proofs.Grammar.Supply
import Lox.Session
import Mathlib.Data.List.Induction

/-!
# The history of a session

A session runs one text after another, and each of them may fail. What was
visited in the accepted ones makes up its history. Everything that a session
keeps from one text to the next is located in that history, and every visit in
it is accepted against the distances noted so far, because no reference number
is given out twice.
-/

namespace Lox

/-- A host whose functions yield numbers, whatever they are called with. Each
number may depend on how many calls came before it. -/
def Host.ofTime (time : Native → Nat → Except String Float) : Host :=
  fun function calls _ => (time function calls).map .number

namespace Session

/-! ## Texts one after another -/

/-- The session after a text has been run, whether that failed or not. -/
def proceed (session : Session) (input : Nat × String) : Session :=
  match Session.run input.1 input.2 session with
  | .ok _ after => after
  | .error _ after => after

/-- The session after several texts, each run within a number of steps. -/
def after (session : Session) (inputs : List (Nat × String)) : Session :=
  inputs.foldl proceed session

/-- A text holds a program in which reading and binding find nothing wrong. -/
def Accepts (session : Session) (source : String) (program : List Stmt) : Prop :=
  (readProgram source session.nextReference).1 = .ok program ∧
    (bindProgram program session.machine.distances).1 = []

/-- The machine on which an accepted program runs. -/
def bound (session : Session) (program : List Stmt) : Machine :=
  { session.machine with distances := (bindProgram program session.machine.distances).2 }

/-- A visit that was made in one of the accepted texts of a session. -/
def Visited (start : Session) (inputs : List (Nat × String)) (visit : Visit) : Prop :=
  ∃ past steps source future program,
    inputs = past ++ (steps, source) :: future ∧
    (start.after past).Accepts source program ∧
    ∃ front statement back, program = front ++ statement :: back ∧
      Relation.ReflTransGen Visit.Contains
        ⟨.stmt statement, Analysis.stmts front (.start (start.after past).machine.distances),
          []⟩ visit

/-- A moment of the run of a text that is accepted after other texts. -/
def Occurs (start : Session) (past : List (Nat × String)) (steps : Nat) (source : String)
    (moment : Moment) : Prop :=
  ∃ program, (start.after past).Accepts source program ∧
    Moment.Occurs steps program ((start.after past).bound program) moment

end Session

/-! ## Steps of a session -/

namespace Session

variable {session : Session} {steps : Nat} {source : String} {program : List Stmt}

/-- One step of a session after another. -/
theorem step_bind {α β : Type} (step : Interaction α) (next : α → Interaction β)
    (session : Session) :
    (step >>= next) session =
      match step session with
      | .ok value after => next value after
      | .error failure after => .error failure after := by
  change EStateM.bind step next session = _
  unfold EStateM.bind
  cases step session <;> rfl

theorem reading_step {α : Type} (read : Nat → Except Failure α × Nat) (session : Session) :
    reading read session =
      (match (read session.nextReference).1 with
        | .ok value => (pure value : Interaction α)
        | .error failure => throw failure)
          { session with nextReference := (read session.nextReference).2 } := rfl

theorem reading_eq {α : Type} (read : Nat → Except Failure α × Nat) (session : Session) :
    reading read session =
      match (read session.nextReference).1 with
      | .ok value => .ok value { session with nextReference := (read session.nextReference).2 }
      | .error failure =>
          .error failure { session with nextReference := (read session.nextReference).2 } := by
  rw [reading_step]
  cases (read session.nextReference).1 <;> rfl

theorem bind_step (session : Session) (program : List Stmt) :
    Session.bind program session =
      (match (bindProgram program session.machine.distances).1 with
        | [] => (pure () : Interaction Unit)
        | faults => throw (Failure.ofDiagnostics faults))
          { session with machine := session.bound program } := rfl

theorem bind_eq (session : Session) (program : List Stmt) :
    Session.bind program session =
      match (bindProgram program session.machine.distances).1 with
      | [] => .ok () { session with machine := session.bound program }
      | first :: rest =>
          .error (.ofDiagnostics (first :: rest))
            { session with machine := session.bound program } := by
  rw [bind_step]
  cases (bindProgram program session.machine.distances).1 <;> rfl

/-- What happens to a text depends on whether it is read and bound without a
fault. The distances noted for a faulty program stay. -/
theorem run_outcome (session : Session) (steps : Nat) (source : String) :
    Session.run steps source session =
      match (readProgram source session.nextReference).1 with
      | .error failure =>
          .error failure
            { session with nextReference := (readProgram source session.nextReference).2 }
      | .ok program =>
          match (bindProgram program session.machine.distances).1 with
          | first :: rest =>
              .error (.ofDiagnostics (first :: rest))
                ⟨session.bound program, (readProgram source session.nextReference).2⟩
          | [] =>
              match interpret steps program (session.bound program) with
              | .ok _ machine => .ok () ⟨machine, (readProgram source session.nextReference).2⟩
              | .error halt machine =>
                  .error (.ofHalt halt)
                    ⟨machine, (readProgram source session.nextReference).2⟩ := by
  unfold Session.run
  rw [step_bind, reading_eq]
  cases (readProgram source session.nextReference).1 with
  | error failure => rfl
  | ok program =>
      have same : (⟨session.machine, (readProgram source session.nextReference).2⟩ :
          Session).bound program = session.bound program := rfl
      simp only [step_bind, bind_eq, same]
      cases (bindProgram program session.machine.distances).1 with
      | cons first rest => rfl
      | nil =>
          simp only [running]
          cases interpret steps program (session.bound program) <;> rfl

theorem proceed_eq (session : Session) (steps : Nat) (source : String) :
    session.proceed (steps, source) =
      match (readProgram source session.nextReference).1 with
      | .error _ => { session with nextReference := (readProgram source session.nextReference).2 }
      | .ok program =>
          match (bindProgram program session.machine.distances).1 with
          | _ :: _ => ⟨session.bound program, (readProgram source session.nextReference).2⟩
          | [] =>
              match interpret steps program (session.bound program) with
              | .ok _ machine => ⟨machine, (readProgram source session.nextReference).2⟩
              | .error _ machine => ⟨machine, (readProgram source session.nextReference).2⟩ := by
  unfold proceed
  rw [run_outcome]
  cases (readProgram source session.nextReference).1 with
  | error failure => rfl
  | ok program =>
      dsimp only
      cases (bindProgram program session.machine.distances).1 with
      | cons first rest => rfl
      | nil =>
          dsimp only
          cases interpret steps program (session.bound program) <;> rfl

/-! ## Accepted texts -/

/-- A text that holds a program has tokens that follow the rules and fit their
kinds, and its uses of names have numbers of their own. -/
theorem placed_of_read {next : Nat} (read : (readProgram source next).1 = .ok program) :
    Stmt.ListPlaced program ∧
      Fresh next (readProgram source next).2 (Stmt.listNumbers program) := by
  have genuine := genuine_scan source
  unfold readProgram at read ⊢
  cases scanned : scan source with
  | mk tokens lexical =>
      rw [scanned] at genuine
      simp only [scanned] at read ⊢
      have accepted : (Grammar.readProgram tokens next).1 = .ok program ∧ lexical = [] := by
        cases parsed : Grammar.readProgram tokens next with
        | mk result after =>
            rw [parsed] at read
            cases lexical <;> cases result <;> simp at read ⊢
            exact read
      obtain ⟨derivation, fresh⟩ := Grammar.sound_readProgram accepted.1
      constructor
      · apply Grammar.places_program derivation
        exact fun token inside => genuine token (List.takeWhile_sublist _ |>.subset inside)
      · cases parsed : Grammar.readProgram tokens next with
        | mk result after =>
            rw [parsed] at accepted fresh
            obtain ⟨rfl, rfl⟩ := accepted
            exact fresh

/-- Reading takes back no reference number. -/
theorem supplies_read (source : String) (next : Nat) : next ≤ (readProgram source next).2 := by
  unfold readProgram
  cases scanned : scan source with
  | mk tokens lexical =>
      have supplied := Grammar.supplies_readProgram tokens next
      simp only
      cases parsed : Grammar.readProgram tokens next with
      | mk result after =>
          rw [parsed] at supplied
          cases lexical <;> cases result <;> exact supplied

/-! ## Visits of a session -/

section Visits

variable {start : Session} {past inputs : List (Nat × String)} {visit inner : Visit}

theorem Visited.contains (visited : start.Visited inputs visit) (contains : visit.Contains inner) :
    start.Visited inputs inner := by
  obtain ⟨past, steps, source, future, program, shape, accepts, front, statement, back, listed,
    reach⟩ := visited
  exact ⟨past, steps, source, future, program, shape, accepts, front, statement, back, listed,
    reach.tail contains⟩

/-- A property of visits that goes from a visit to its parts holds in a session if
it holds of the statements of its programs. -/
theorem Visited.induction {property : Visit → Prop} (visited : start.Visited inputs visit)
    (step : ∀ {outer inner : Visit}, property outer → outer.Contains inner → property inner)
    (base : ∀ past steps source future program, inputs = past ++ (steps, source) :: future →
      (start.after past).Accepts source program →
      ∀ front statement back, program = front ++ statement :: back →
        property ⟨.stmt statement,
          Analysis.stmts front (.start (start.after past).machine.distances), []⟩) :
    property visit := by
  obtain ⟨past, steps, source, future, program, shape, accepts, front, statement, back, listed,
    reach⟩ := visited
  induction reach with
  | refl => exact base past steps source future program shape accepts front statement back listed
  | tail _ contains ih => exact step ih contains

theorem Visited.placed (visited : start.Visited inputs visit) : visit.node.Placed := by
  apply visited.induction fun placed contains => contains.placed placed
  intro past steps source future program _ accepts front statement back listed
  exact Stmt.listPlaced_iff.mp (placed_of_read accepts.1).1 statement (by simp [listed])

/-- Texts that come later make no difference to the visits of earlier ones. -/
theorem Visited.append (visited : start.Visited past visit) (later : List (Nat × String)) :
    start.Visited (past ++ later) visit := by
  obtain ⟨earlier, steps, source, future, program, shape, rest⟩ := visited
  exact ⟨earlier, steps, source, future ++ later, program, by simp [shape], rest⟩

/-- The visits up to a text are those before it and those in it. -/
theorem visited_concat (visited : start.Visited (past ++ [(steps, source)]) visit) :
    start.Visited past visit ∨
      ∃ program, (start.after past).Accepts source program ∧
        ∃ front statement back, program = front ++ statement :: back ∧
          Relation.ReflTransGen Visit.Contains
            ⟨.stmt statement,
              Analysis.stmts front (.start (start.after past).machine.distances), []⟩ visit := by
  obtain ⟨earlier, _, _, future, program, shape, accepts, rest⟩ := visited
  rcases List.eq_nil_or_concat future with rfl | ⟨later, last, rfl⟩
  · obtain ⟨rfl, same⟩ := List.append_inj' shape rfl
    cases same
    exact .inr ⟨program, accepts, rest⟩
  · rw [List.concat_eq_append, ← List.cons_append, ← List.append_assoc] at shape
    obtain ⟨rfl, _⟩ := List.append_inj' shape rfl
    exact .inl ⟨earlier, _, _, later, program, rfl, accepts, rest⟩

/-- What is known about a session: everything visited in it. -/
def survey (start : Session) (inputs : List (Nat × String)) : Survey where
  visited := start.Visited inputs
  contains := Visited.contains
  placed := Visited.placed

end Visits

/-! ## What a session keeps -/

section Keeping

variable {start : Session} {survey : Survey} {past inputs : List (Nat × String)}

/-- A session between two texts: a sound machine outside of all local scopes. -/
structure Sound (survey : Survey) (session : Session) : Prop where
  machine : session.machine.Sound survey
  outside : session.machine.environment = globalEnvironment

/-- On a fresh machine nothing but the clock is bound. -/
theorem held_start {host : Host} {policy : SinkPolicy} {scope : ScopeRef} {name : String}
    {value : Value}
    (held : ((Machine.start host policy).store.scope scope).get? name = some value) :
    name = clock.name ∧ value = .native clock := by
  obtain ⟨index⟩ := scope
  cases index with
  | zero =>
      change (Bindings.empty.set clock.name (.native clock)).get? name = some value at held
      rw [Bindings.get?_set] at held
      split at held
      · next same =>
          cases held
          exact ⟨same.symm, rfl⟩
      · cases held
  | succ index => cases held

/-- Functions of a host that tells the time yield nothing but numbers. -/
theorem plain_ofTime {time : Native → Nat → Except String Float} {function : Native}
    {calls : Nat} (arguments : List Value) {value : Value}
    (answered : Host.ofTime time function calls arguments = .ok value) : value.IsPlain := by
  change (time function calls).map Value.number = .ok value at answered
  cases told : time function calls with
  | error message =>
      rw [told] at answered
      cases answered
  | ok amount =>
      rw [told] at answered
      cases answered
      trivial

/-- A fresh session is sound, since it holds no function of a program. -/
theorem sound_start (survey : Survey) (time : Native → Nat → Except String Float)
    (policy : SinkPolicy) : (Session.start (Host.ofTime time) policy).Sound survey := by
  refine ⟨⟨Nat.zero_lt_one, ?_, ?_, ?_⟩, rfl⟩
  · intro scope name value held
    obtain ⟨rfl, rfl⟩ := held_start held
    trivial
  · rintro ⟨index⟩ name value held
    cases held
  · exact fun function calls arguments value answered => (plain_ofTime arguments answered).located

/-- An accepted program runs on a sound machine and leaves its distances. -/
theorem keeps_accepted (sound : session.Sound survey)
    (lists : survey.Lists program (.start session.machine.distances) []) :
    (interpret steps program).Keeps survey (session.bound program) fun _ _ => True :=
  keeps_interpret lists rfl (sound.machine.of_eq rfl rfl) sound.outside

/-- An accepted program starts outside of all local scopes. -/
theorem inside_bound (sound : session.Sound survey) (program : List Stmt) :
    (session.bound program).Inside survey (session.bound program).distances [] [] := by
  refine ⟨sound.machine.of_eq rfl rfl, rfl, ?_⟩
  change Environment.Fits _ [] [] session.machine.environment
  rw [sound.outside]
  exact .globals

/-- A text leaves a sound session behind, also where it fails. It leaves the
distances that were noted when its program was bound, if there is one. -/
theorem sound_proceed (sound : session.Sound survey)
    (lists : ∀ program, session.Accepts source program →
      survey.Lists program (.start session.machine.distances) []) :
    (session.proceed (steps, source)).Sound survey ∧
      (session.proceed (steps, source)).machine.distances =
        match (readProgram source session.nextReference).1 with
        | .error _ => session.machine.distances
        | .ok program => (bindProgram program session.machine.distances).2 := by
  rw [proceed_eq]
  cases read : (readProgram source session.nextReference).1 with
  | error failure => exact ⟨⟨sound.machine, sound.outside⟩, rfl⟩
  | ok program =>
      simp only
      cases clean : (bindProgram program session.machine.distances).1 with
      | cons first rest => exact ⟨⟨sound.machine.of_eq rfl rfl, sound.outside⟩, rfl⟩
      | nil =>
          have keeps : (interpret steps program).Keeps survey (session.bound program)
              fun _ _ => True := keeps_accepted sound (lists program ⟨read, clean⟩)
          unfold Run.Keeps at keeps
          cases ran : interpret steps program (session.bound program) with
          | ok result machine =>
              rw [ran] at keeps
              exact ⟨⟨keeps.1.sound, keeps.1.environment.trans sound.outside⟩, keeps.1.distances⟩
          | error halt machine =>
              rw [ran] at keeps
              exact ⟨⟨keeps.sound, keeps.environment.trans sound.outside⟩, keeps.distances⟩

theorem nextReference_proceed (session : Session) (steps : Nat) (source : String) :
    (session.proceed (steps, source)).nextReference =
      (readProgram source session.nextReference).2 := by
  rw [proceed_eq]
  split
  · rfl
  · split
    · rfl
    · split <;> rfl

@[simp] theorem after_nil (start : Session) : start.after [] = start := rfl

@[simp] theorem after_concat (start : Session) (past : List (Nat × String))
    (input : Nat × String) : start.after (past ++ [input]) = (start.after past).proceed input := by
  simp [after]

/-- The survey of a session lists every accepted program of it. -/
theorem lists_of_accepts {future : List (Nat × String)}
    (shape : inputs = past ++ (steps, source) :: future)
    (accepts : (start.after past).Accepts source program) :
    (start.survey inputs).Lists program (.start (start.after past).machine.distances) [] := by
  intro front statement back listed
  exact ⟨past, steps, source, future, program, shape, accepts, front, statement, back, listed,
    .refl⟩

/-- Every session is sound between two texts. -/
theorem sound_after (sound : start.Sound (start.survey inputs))
    {future : List (Nat × String)} (shape : inputs = past ++ future) :
    (start.after past).Sound (start.survey inputs) := by
  induction past using List.reverseRecOn generalizing future with
  | nil => exact sound
  | append_singleton past input ih =>
      have listed : inputs = past ++ (input.1, input.2) :: future := by simp [shape]
      have before : (start.after past).Sound (start.survey inputs) := ih listed
      rw [after_concat]
      exact (sound_proceed before fun program accepts => lists_of_accepts listed accepts).1

end Keeping

/-! ## Distances of a session -/

/-- The visits made so far are accepted against the distances noted so far, and
numbers not yet given out have no distance. -/
structure Settled (start : Session) (past : List (Nat × String)) : Prop where
  accepted : ∀ visit, start.Visited past visit →
    visit.Accepted (start.after past).machine.distances
  given : ∀ visit, start.Visited past visit →
    ∀ number ∈ visit.node.numbers, number < (start.after past).nextReference
  vacant : ∀ number, (start.after past).nextReference ≤ number →
    (start.after past).machine.distances.get? number = none

section Settling

variable {start : Session} {past : List (Nat × String)}

/-- Binding a program changes distances of its own uses of names only. -/
theorem distances_bindProgram (program : List Stmt) (distances : Distances) {number : Nat}
    (outside : number ∉ Stmt.listNumbers program) :
    (bindProgram program distances).2.get? number = distances.get? number :=
  (Analysis.passes_stmts program (.start distances)).distances number outside

/-- Once a text is read and bound, the visits made so far are accepted with those
in the text. -/
theorem Settled.bound (settled : Settled start past)
    (accepts : (start.after past).Accepts source program) {visit : Visit}
    (visited : start.Visited (past ++ [(steps, source)]) visit) :
    visit.Accepted ((start.after past).bound program).distances ∧
      ∀ number ∈ visit.node.numbers,
        number < (readProgram source (start.after past).nextReference).2 := by
  obtain ⟨placed, fresh⟩ := placed_of_read accepts.1
  rcases visited_concat visited with earlier | ⟨other, again, front, statement, back, listed, reach⟩
  · constructor
    · apply (settled.accepted visit earlier).keep
      intro number inside
      apply distances_bindProgram
      intro own
      have below := settled.given visit earlier number inside
      have above := (fresh.range number own).1
      omega
    · intro number inside
      exact Nat.lt_of_lt_of_le (settled.given visit earlier number inside) fresh.le
  · have same : other = program := by
      have both := again.1.symm.trans accepts.1
      cases both
      rfl
    subst same
    have unseen (number : Nat) (inside : number ∈ Stmt.listNumbers other) :
        (start.after past).machine.distances.get? number = none :=
      settled.vacant number (fresh.range number inside).1
    induction reach with
    | refl =>
        constructor
        · exact Visit.accepted_of_program [] accepts.2 fresh.nodup unseen placed listed
        · intro number inside
          apply (fresh.range number _).2
          rw [listed, Stmt.listNumbers_append, Stmt.listNumbers]
          exact List.mem_append_right _ (List.mem_append_left _ inside)
    | @tail outer inner reached contains ih =>
        have outerVisited : start.Visited (past ++ [(steps, source)]) outer :=
          ⟨past, steps, source, [], other, rfl, accepts, front, statement, back, listed, reached⟩
        obtain ⟨outerAccepted, outerGiven⟩ := ih outerVisited
        constructor
        · exact outerAccepted.contains contains
        · exact fun number inside => outerGiven number (contains.numbers inside)

/-- The distances of a session stay settled from one text to the next. -/
theorem settled_concat (settled : Settled start past)
    (distances : ((start.after past).proceed (steps, source)).machine.distances =
      match (readProgram source (start.after past).nextReference).1 with
      | .error _ => (start.after past).machine.distances
      | .ok program => (bindProgram program (start.after past).machine.distances).2) :
    Settled start (past ++ [(steps, source)]) := by
  have supplied := supplies_read source (start.after past).nextReference
  have next := nextReference_proceed (start.after past) steps source
  -- Visits made before keep their distances, whether or not the text is accepted.
  have earlier (visit : Visit) (visited : start.Visited past visit) :
      visit.Accepted ((start.after past).proceed (steps, source)).machine.distances := by
    apply (settled.accepted visit visited).keep
    intro number inside
    rw [distances]
    cases read : (readProgram source (start.after past).nextReference).1 with
    | error failure => rfl
    | ok program =>
        apply distances_bindProgram
        intro own
        have below := settled.given visit visited number inside
        have above := ((placed_of_read read).2.range number own).1
        omega
  have everything (visit : Visit) (visited : start.Visited (past ++ [(steps, source)]) visit) :
      visit.Accepted ((start.after past).proceed (steps, source)).machine.distances ∧
        ∀ number ∈ visit.node.numbers,
          number < ((start.after past).proceed (steps, source)).nextReference := by
    rcases visited_concat visited with before | ⟨program, accepts, _⟩
    · refine ⟨earlier visit before, fun number inside => ?_⟩
      rw [next]
      exact Nat.lt_of_lt_of_le (settled.given visit before number inside) supplied
    · rw [next, distances, accepts.1]
      exact settled.bound accepts visited
  constructor
  · rw [after_concat]
    exact fun visit visited => (everything visit visited).1
  · rw [after_concat]
    exact fun visit visited => (everything visit visited).2
  · rw [after_concat, next, distances]
    intro number beyond
    have old := settled.vacant number (Nat.le_trans supplied beyond)
    cases read : (readProgram source (start.after past).nextReference).1 with
    | error failure => exact old
    | ok program =>
        simp only
        rw [distances_bindProgram, old]
        intro own
        have below := ((placed_of_read read).2.range number own).2
        omega

/-- The distances of every session are settled. -/
theorem settled_after {inputs : List (Nat × String)}
    (empty : start.machine.distances = .empty) (sound : start.Sound (start.survey inputs))
    {future : List (Nat × String)} (shape : inputs = past ++ future) : Settled start past := by
  induction past using List.reverseRecOn generalizing future with
  | nil =>
      constructor
      · rintro visit ⟨earlier, _, _, _, _, impossible, _⟩
        simp at impossible
      · rintro visit ⟨earlier, _, _, _, _, impossible, _⟩
        simp at impossible
      · intro number _
        rw [after_nil, empty]
        exact Distances.get?_empty number
  | append_singleton past input ih =>
      obtain ⟨steps, source⟩ := input
      have listed : inputs = past ++ (steps, source) :: future := by simp [shape]
      apply settled_concat (ih listed)
      exact (sound_proceed (sound_after sound listed)
        fun program accepts => lists_of_accepts listed accepts).2

/-- The distances of a fresh session are settled after any texts. -/
theorem settled_start (time : Native → Nat → Except String Float) (policy : SinkPolicy)
    (past : List (Nat × String)) : Settled (Session.start (Host.ofTime time) policy) past :=
  settled_after rfl (sound_start _ time policy) (List.append_nil past).symm

/-- A number in an accepted text was given out for that text. -/
theorem fresh_of_reach {front back : List Stmt} {statement : Stmt} {analysis : Analysis}
    {loose : List (List String)} {visit : Visit} {number : Nat}
    (accepts : (start.after past).Accepts source program)
    (listed : program = front ++ statement :: back)
    (reach : Relation.ReflTransGen Visit.Contains ⟨.stmt statement, analysis, loose⟩ visit)
    (inside : number ∈ visit.node.numbers) : (start.after past).nextReference ≤ number := by
  have own : number ∈ statement.numbers := Visit.numbers_of_reach reach inside
  apply ((placed_of_read accepts.1).2.range number _).1
  simp [listed, own]

/-- In a session there is one visit only of each node that has a number in it. -/
theorem Visited.unique {inputs : List (Nat × String)} {one other : Visit} {number : Nat}
    (settled : ∀ past, Settled start past) (first : start.Visited inputs one)
    (second : start.Visited inputs other) (same : one.node = other.node)
    (inside : number ∈ one.node.numbers) : one = other := by
  have within : number ∈ other.node.numbers := same ▸ inside
  induction inputs using List.reverseRecOn with
  | nil =>
      obtain ⟨_, _, _, _, _, impossible, _⟩ := first
      simp at impossible
  | append_singleton past input ih =>
      obtain ⟨steps, source⟩ := input
      -- Numbers of earlier texts lie below those of later ones.
      rcases visited_concat first with earlier | ⟨program, accepts, front, statement, back,
          listed, reach⟩
      · rcases visited_concat second with before | ⟨program, accepts, front, statement, back,
            listed, reach⟩
        · exact ih earlier before
        · have below := (settled past).given one earlier number inside
          have above := fresh_of_reach accepts listed reach within
          omega
      · rcases visited_concat second with before | ⟨again, both, ahead, twin, behind, placed,
            path⟩
        · have below := (settled past).given other before number within
          have above := fresh_of_reach accepts listed reach inside
          omega
        · have equal : again = program := by
            have agree := both.1.symm.trans accepts.1
            cases agree
            rfl
          subst equal
          have nodup := (placed_of_read accepts.1).2.nodup
          rw [listed, Stmt.listNumbers_eq_flatMap] at nodup
          have inFirst : number ∈ statement.numbers := Visit.numbers_of_reach reach inside
          have inSecond : number ∈ twin.numbers := Visit.numbers_of_reach path within
          obtain ⟨rfl, rfl, rfl⟩ :=
            split_unique (listed.symm.trans placed) nodup inFirst inSecond
          have root : start.Visited (past ++ [(steps, source)])
              ⟨.stmt statement, Analysis.stmts front (.start (start.after past).machine.distances),
                []⟩ :=
            ⟨past, steps, source, [], again, rfl, accepts, front, statement, back, listed, .refl⟩
          exact Visit.reach_unique ((settled _).accepted _ root) reach path same inside

end Settling

/-! ## Every moment of every run -/

section Moments

variable {start : Session} {past : List (Nat × String)} {moment : Moment}

/-- Every moment of a session stands at a visit made in it, with distances against
which all visits are accepted. -/
theorem Occurs.sound (empty : start.machine.distances = .empty)
    (sound : start.Sound (start.survey (past ++ [(steps, source)])))
    (occurs : start.Occurs past steps source moment) :
    moment.Sound (start.survey (past ++ [(steps, source)])) moment.machine.distances ∧
      ∀ visit, start.Visited (past ++ [(steps, source)]) visit →
        visit.Accepted moment.machine.distances := by
  obtain ⟨program, accepts, happens⟩ := occurs
  have before := sound_after sound rfl
  have inside := inside_bound before program
  have lists : (start.survey (past ++ [(steps, source)])).Lists program
      (.start (start.after past).machine.distances) [] := lists_of_accepts rfl accepts
  have momentSound := Moment.sound_of_occurs lists rfl inside happens
  have settled := settled_after empty sound rfl
  constructor
  · rw [momentSound.2.1]
    exact momentSound
  · intro visit made
    rw [momentSound.2.1]
    exact (settled.bound accepts made).1

end Moments

end Session

end Lox
