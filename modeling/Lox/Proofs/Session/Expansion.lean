import Lox.Proofs.Expansion.Evaluation
import Lox.Proofs.Expansion.Unchanged
import Lox.Proofs.Session.Renaming

/-!
# Loops are what they expand to

A `for` loop among other statements may be written as its first clause and a `while` loop
behind it. A session accepts the program that is written so if it accepts the program, and
wherever both finish they have printed the same and ended in the same way, whatever the
session was asked before.
-/

namespace Lox

namespace Session

/-! ## Endings -/

/-- What is seen of a run that finishes: what keeps it from succeeding, if anything does,
and what has been printed. -/
def ending? : EStateM.Result Failure Session Unit → Option (Option Failure × Sink)
  | .ok _ after => some (none, after.machine.sink)
  | .error .outOfSteps _ => none
  | .error failure after => some (some failure, after.machine.sink)

/-- Two runs, for any number of steps: with enough steps both finish or neither does, and
where they finish the same is seen of both. -/
structure Concur (runs runs' : Nat → EStateM.Result Failure Session Unit) : Prop where
  finishes : (∃ steps, ending? (runs steps) ≠ none) ↔ ∃ steps, ending? (runs' steps) ≠ none
  same : ∀ steps steps', ending? (runs steps) ≠ none → ending? (runs' steps') ≠ none →
    ending? (runs steps) = ending? (runs' steps')

/-- Where the first run finishes, the second one does, too, with all numbers of steps that
are large enough. -/
def Leads (runs runs' : Nat → EStateM.Result Failure Session Unit) : Prop :=
  ∀ steps, ending? (runs steps) ≠ none →
    ∃ enough, ∀ more, enough ≤ more → ending? (runs' more) = ending? (runs steps)

section Endings

variable {runs runs' : Nat → EStateM.Result Failure Session Unit}

theorem concur_of_leads (there : Leads runs runs') (back : Leads runs' runs) :
    Concur runs runs' := by
  constructor
  · constructor
    · rintro ⟨steps, finished⟩
      obtain ⟨enough, alike⟩ := there steps finished
      exact ⟨enough, by rwa [alike enough (Nat.le_refl _)]⟩
    · rintro ⟨steps, finished⟩
      obtain ⟨enough, alike⟩ := back steps finished
      exact ⟨enough, by rwa [alike enough (Nat.le_refl _)]⟩
  · intro steps steps' finished finished'
    -- Both are compared with one more run of the second kind.
    obtain ⟨first, alike⟩ := there steps finished
    obtain ⟨between, returned⟩ := back steps' finished'
    have same := returned between (Nat.le_refl _)
    obtain ⟨second, again⟩ := there between (by rwa [same])
    have one := alike (max first second) (Nat.le_max_left ..)
    have other := again (max first second) (Nat.le_max_right ..)
    rw [← one, other, same]

theorem Concur.congr {runs'' : Nat → EStateM.Result Failure Session Unit}
    (concur : Concur runs runs') (same : ∀ steps, ending? (runs'' steps) = ending? (runs' steps)) :
    Concur runs runs'' :=
  ⟨by simpa only [same] using concur.finishes, by simpa only [same] using concur.same⟩

end Endings

/-! ## Programs in sessions -/

/-- Bind the names of a program and run it. -/
def runProgram (steps : Nat) (program : List Stmt) : Interaction Unit := do
  bind program
  running (interpret steps program)

variable {session : Session} {source : String} {program program' : List Stmt}

theorem carries_runProgram (steps : Nat)
    (clean : (bindProgram program session.machine.distances).1 = []) :
    Carries (interpret steps program (session.bound program))
      (runProgram steps program session) := by
  have run : runProgram steps program session = running (interpret steps program)
      { session with machine := session.bound program } := by
    change EStateM.bind (bind program) _ session = _
    unfold EStateM.bind
    rw [bind_eq, clean]
  rw [run, running]
  cases interpret steps program (session.bound program) with
  | ok _ machine => exact .ok
  | error halt machine => exact .error

theorem ending_of_matched {short : Shortage} {expansion : Expansion} {layout : Padding.Layout}
    {result result' : EStateM.Result Halt Machine Unit}
    {ending ending' : EStateM.Result Failure Session Unit}
    (matched : Run.Matched short expansion layout [0] (fun _ _ _ => True) result result')
    (carries : Carries result ending) (carries' : Carries result' ending') :
    ending? ending' = ending? ending ∨ (short = .plain ∧ ending? ending = none) ∨
      (short = .expanded ∧ ending? ending' = none) := by
  cases matched with
  | ok _ _ machines =>
      cases carries
      cases carries'
      exact .inl (congrArg (fun sink => some (none, sink)) machines.sink)
  | fault _ machines =>
      cases carries
      cases carries'
      exact .inl (congrArg (fun sink => some (some _, sink)) machines.sink)
  | plain stops =>
      cases carries
      exact .inr (.inl ⟨stops, rfl⟩)
  | expanded stops =>
      cases carries'
      exact .inr (.inr ⟨stops, rfl⟩)

variable {number : Nat → Nat → Prop} {last : Nat} {time : Native → Nat → Except String Float}

/-- Functions that are there before a program runs keep the distances in them. -/
theorem keeps_bound (alike : session.Alike number session)
    (fresh : Fresh session.nextReference last (Stmt.listNumbers program)) {one other : Nat}
    (paired : number one other) :
    (session.bound program).distances.get? one = session.machine.distances.get? one := by
  refine distances_bindProgram program _ fun inside => ?_
  exact absurd (alike.given paired).1 (Nat.not_lt.mpr (fresh.range one inside).1)

/-- An expanded program ends like the program. -/
theorem matched_bound (shaped : session.IsShaped) (outside : session.Outside)
    (tells : session.machine.host.Tells time) (alike : session.Alike number session)
    (fresh : Fresh session.nextReference last (Stmt.listNumbers program))
    (fresh' : Fresh session.nextReference last (Stmt.listNumbers program'))
    (expands : Stmt.ListExpands (Expansion.rule
      ⟨(session.bound program).distances, (session.bound program').distances⟩) [0] program program')
    {short : Shortage} {steps steps' : Nat} (allows : short.Allows (steps + 1) (steps' + 1)) :
    ∃ expansion layout, Run.Matched short expansion layout [0] (fun _ _ _ => True)
      (interpret steps program (session.bound program))
      (interpret steps' program' (session.bound program')) := by
  obtain ⟨⟨shape, shaped⟩, -⟩ := shaped
  have keeps {one other : Nat} (paired : number one other) :
      (Expansion.mk (session.bound program).distances
        (session.bound program').distances).expanded.get? one =
        (Expansion.mk (session.bound program).distances
          (session.bound program').distances).plain.get? one :=
    (keeps_bound alike fresh' paired).trans (keeps_bound alike fresh paired).symm
  have machines := shaped.expands_self keeps alike.machine.store outside tells
  exact ⟨_, _, matches_interpret expands allows machines⟩

/-! ## The expanded program -/

theorem ending_of_agree {result result' : EStateM.Result Halt Machine Unit}
    {ending ending' : EStateM.Result Failure Session Unit}
    (agree : Run.Agree (.exact number) (fun _ _ => True) result' result)
    (carries : Carries result ending) (carries' : Carries result' ending') :
    ending? ending' = ending? ending := by
  cases agree with
  | ok _ same =>
      cases carries
      cases carries'
      exact congrArg (fun sink => some (none, sink)) same.sink
  | @error halt _ _ _ alike same =>
      cases halt_eq alike
      cases carries
      cases carries'
      cases halt with
      | fault fault => exact congrArg (fun sink => some (some _, sink)) same.sink
      | outOfSteps => rfl

/-- Where an expanded program has enough steps it ends like the program, and where the
program has enough steps it ends like the expanded one. -/
theorem concur_of_ends {runs runs' : Nat → EStateM.Result Failure Session Unit}
    (ends : ∀ {short : Shortage} {steps steps' : Nat}, short.Allows (steps + 1) (steps' + 1) →
      ending? (runs' steps') = ending? (runs steps) ∨
        (short = .plain ∧ ending? (runs steps) = none) ∨
        (short = .expanded ∧ ending? (runs' steps') = none)) : Concur runs runs' := by
  apply concur_of_leads
  · intro steps finished
    refine ⟨3 * steps + 2, fun more enough => ?_⟩
    have allows : Shortage.plain.Allows (steps + 1) (more + 1) := by
      unfold Shortage.Allows
      omega
    rcases ends allows with same | ⟨_, none⟩ | ⟨stops, _⟩
    · exact same
    · exact absurd none finished
    · cases stops
  · intro steps finished
    refine ⟨2 * steps + 1, fun more enough => ?_⟩
    have allows : Shortage.expanded.Allows (more + 1) (steps + 1) := by
      unfold Shortage.Allows
      omega
    rcases ends allows with same | ⟨stops, _⟩ | ⟨_, none⟩
    · exact same.symm
    · cases stops
    · exact absurd none finished

/-- A loop among other statements is what it expands to. In an accepted program some loops
that stand in lists of statements are expanded. The program with the expanded loops is
accepted, too, and both finish or neither does; where they finish, both have printed the
same and have ended in the same way. So it is with every text that holds the program with
the expanded loops. -/
theorem expansion_unnoticed (time : Native → Nat → Except String Float) (policy : SinkPolicy)
    (past : List Request) (source : String) (program program' : List Stmt)
    (accepts : ((Session.start (Host.ofTime time) policy).reach past).Accepts source program)
    (expands : Stmt.ListExpands Padding.anywhere [0] program program') :
    (bindProgram program'
        ((Session.start (Host.ofTime time) policy).reach past).machine.distances).1 = [] ∧
      Concur
        (fun steps =>
          Session.run steps source ((Session.start (Host.ofTime time) policy).reach past))
        (fun steps =>
          runProgram steps program' ((Session.start (Host.ofTime time) policy).reach past)) ∧
      ∀ source', ((Session.start (Host.ofTime time) policy).reach past).Holds source' program' →
        (∃ read, ((Session.start (Host.ofTime time) policy).reach past).Accepts source' read) ∧
          Concur
            (fun steps =>
              Session.run steps source ((Session.start (Host.ofTime time) policy).reach past))
            (fun steps =>
              Session.run steps source'
                ((Session.start (Host.ofTime time) policy).reach past)) := by
  obtain ⟨shaped, outside, tells⟩ := reached_steady time policy past
  obtain ⟨number, alike⟩ := (alike_start time policy).reach past
  generalize (Session.start (Host.ofTime time) policy).reach past = session at *
  obtain ⟨read, clean⟩ := accepts
  obtain ⟨placed, fresh⟩ := placed_of_read read
  have moved := expands.numbers
  have fresh' : Fresh session.nextReference _ (Stmt.listNumbers program') :=
    ⟨fresh.le, moved.nodup_iff.mpr fresh.nodup,
      fun number inside => fresh.range number (moved.mem_iff.mp inside)⟩
  have clean' : (bindProgram program' session.machine.distances).1 = [] :=
    expands.accepted placed clean
  have bound := expands.bound clean fresh.nodup
    (fun number inside => alike.vacant number (fresh.range number inside).1) placed
  have concur : Concur (fun steps => Session.run steps source session)
      fun steps => runProgram steps program' session := by
    refine concur_of_ends fun {short steps steps'} allows => ?_
    obtain ⟨_, _, matched⟩ := matched_bound shaped outside tells alike fresh fresh' bound allows
    exact ending_of_matched matched (carries_run steps read clean)
      (carries_runProgram steps' clean')
  refine ⟨clean', concur, fun source' holds => ?_⟩
  obtain ⟨program'', read', unnumbered⟩ := holds
  obtain ⟨faults, -, number', agree⟩ := reread alike read' fresh' unnumbered
  rw [clean'] at faults
  refine ⟨⟨program'', read', faults⟩, concur.congr fun steps => ?_⟩
  exact ending_of_agree (agree steps) (carries_runProgram steps clean')
    (carries_run steps read' faults)

end Session

/-! ## A loop with a captured variable -/

namespace Session

/-- What there is in a block with a loop that declares a variable, asks for it and assigns
to it, and has a function in its body that returns it. -/
structure Looping where
  «variable» : Token
  operator : Token
  asked : Reference
  assigned : Reference
  function : Token
  keyword : Token
  captured : Reference
  deriving DecidableEq

namespace Looping

/-- The body of the loop. -/
def body (parts : Looping) : Stmt :=
  .block [.function ⟨parts.function, [],
    [.returning parts.keyword (some (.variable parts.captured))]⟩]

/-- The program with these parts. -/
def program (parts : Looping) : List Stmt :=
  [.block [.forLoop (some (.var parts.variable none))
    (some (.unary parts.operator (.variable parts.asked)))
    (some (.assign parts.assigned (.literal (.bool true)))) parts.body]]

/-- The program with the loop expanded. -/
def expanded (parts : Looping) : List Stmt :=
  [.block [.var parts.variable none,
    .whileLoop (.unary parts.operator (.variable parts.asked))
      (.block [parts.body, .expression (.assign parts.assigned (.literal (.bool true)))])]]

theorem expands (parts : Looping) :
    Stmt.ListExpands Padding.anywhere [0] parts.program parts.expanded := by
  have inner {padding : Padding} : parts.body.Expands Padding.anywhere padding parts.body :=
    .block (.cons (.function trivial (.intro (.cons (.returning fun _ _ => trivial) .nil))) .nil)
  refine .cons (.block (.loop (fun _ _ => trivial) ?_ (fun _ _ => trivial) (fun _ _ => trivial) rfl
    inner .nil)) .nil
  rintro _ ⟨⟩
  exact .var trivial fun _ _ => trivial

/-- The parts of such a program. -/
def ofProgram? : List Stmt → Option Looping
  | [.block [.forLoop (some (.var declared none)) (some (.unary operator (.variable asked)))
      (some (.assign assigned (.literal (.bool true))))
      (.block [.function ⟨function, [], [.returning keyword (some (.variable captured))]⟩])]] =>
      some ⟨declared, operator, asked, assigned, function, keyword, captured⟩
  | _ => none

/-- The parts of such a program with the loop expanded. -/
def ofExpanded? : List Stmt → Option Looping
  | [.block [.var declared none, .whileLoop (.unary operator (.variable asked))
      (.block [.block [.function ⟨function, [], [.returning keyword (some (.variable captured))]⟩],
        .expression (.assign assigned (.literal (.bool true)))])]] =>
      some ⟨declared, operator, asked, assigned, function, keyword, captured⟩
  | _ => none

theorem program_of_ofProgram? {program : List Stmt} {parts : Looping}
    (found : ofProgram? program = some parts) : program = parts.program := by
  unfold ofProgram? at found
  split at found
  · cases found
    rfl
  · nomatch found

theorem expanded_of_ofExpanded? {program : List Stmt} {parts : Looping}
    (found : ofExpanded? program = some parts) : program = parts.expanded := by
  unfold ofExpanded? at found
  split at found
  · cases found
    rfl
  · nomatch found

/-- The parts of the program of a text, if it is such a program. -/
def ofText? (source : String) (parts? : List Stmt → Option Looping) : Option Looping :=
  (readProgram source 0).1.toOption.bind parts?

theorem read_of_ofText? {source : String} {parts? : List Stmt → Option Looping} {parts : Looping}
    (found : ofText? source parts? = some parts) :
    ∃ program, (readProgram source 0).1 = .ok program ∧ parts? program = some parts := by
  unfold ofText? at found
  cases read : (readProgram source 0).1 with
  | error failure => simp [read, Except.toOption] at found
  | ok program =>
      simp only [read, Except.toOption, Option.bind_some] at found
      exact ⟨program, rfl, found⟩

/-- The same loop as it stands and expanded. -/
theorem reads :
    ((ofText? "{ for (var a; !a; a = true) { fun f() { return a; } } }" ofProgram?).any fun one =>
      (ofText? "{ var a; while (!a) { { fun f() { return a; } } a = true; } }" ofExpanded?).any
        fun other =>
          decide ((bindProgram one.program .empty).1 = [] ∧
            other = { one with
              asked := { one.asked with id := other.asked.id }
              assigned := { one.assigned with id := other.assigned.id }
              captured := { one.captured with id := other.captured.id } })) = true := by
  decide +kernel

end Looping

/-- A loop that declares a variable and has a function in its body that captures it is
expanded. -/
theorem expansion_unnoticed_capturing : ∃ program program',
    silent.Accepts "{ for (var a; !a; a = true) { fun f() { return a; } } }" program ∧
      Stmt.ListExpands Padding.anywhere [0] program program' ∧
      silent.Holds "{ var a; while (!a) { { fun f() { return a; } } a = true; } }" program' ∧
      (∃ read, silent.Accepts "{ var a; while (!a) { { fun f() { return a; } } a = true; } }"
        read) ∧
      Concur
        (fun steps =>
          Session.run steps "{ for (var a; !a; a = true) { fun f() { return a; } } }" silent)
        (fun steps =>
          Session.run steps "{ var a; while (!a) { { fun f() { return a; } } a = true; } }"
            silent) := by
  obtain ⟨one, found, checked⟩ := (Option.any_eq_true _ _).mp Looping.reads
  obtain ⟨other, found', checked⟩ := (Option.any_eq_true _ _).mp checked
  obtain ⟨clean, same⟩ := of_decide_eq_true checked
  obtain ⟨program, read, shaped⟩ := Looping.read_of_ofText? found
  obtain ⟨program', read', shaped'⟩ := Looping.read_of_ofText? found'
  cases Looping.program_of_ofProgram? shaped
  cases Looping.expanded_of_ofExpanded? shaped'
  have holds : silent.Holds "{ var a; while (!a) { { fun f() { return a; } } a = true; } }"
      one.expanded := by
    refine ⟨_, read', ?_⟩
    rw [same]
    simp [Looping.expanded, Looping.body, Reference.unnumbered]
  have unnoticed := expansion_unnoticed (fun _ _ => .error "no time") .unlimited [] _ _ _
    ⟨read, clean⟩ one.expands
  obtain ⟨accepted, concur⟩ := unnoticed.2.2 _ holds
  exact ⟨_, _, ⟨read, clean⟩, one.expands, holds, accepted, concur⟩

end Session

end Lox
