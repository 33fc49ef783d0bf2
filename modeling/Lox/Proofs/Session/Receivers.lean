import Lox.Proofs.Receivers.Attending

/-!
# Receivers in a session

A session can be watched from its start. It then runs as it does unwatched, and
everything that its code sees of `this` and `super` is what it should be.
-/

namespace Lox

namespace Session

/-! ## Watched sessions -/

/-- A session with everything noted down about receivers. -/
structure Watched where
  watch : Watch
  nextReference : Nat

namespace Watched

/-- A session in which nothing has run yet. -/
def start (host : Host) (policy : SinkPolicy) : Watched :=
  ⟨⟨.start host policy, fun _ => none, fun _ => none, []⟩, 0⟩

/-- The session itself. -/
def forget (session : Watched) : Session :=
  ⟨session.watch.machine, session.nextReference⟩

/-- The watch on which an accepted program runs. -/
def bound (session : Watched) (program : List Stmt) : Watch :=
  { session.watch with machine := session.forget.bound program }

/-- The session after a text has been read, bound and run, whether that failed or
not. -/
def proceed (session : Watched) (input : Nat × String) : Watched :=
  let (result, nextReference) := readProgram input.2 session.nextReference
  match result with
  | .error _ => ⟨session.watch, nextReference⟩
  | .ok program =>
      match (bindProgram program session.watch.machine.distances).1 with
      | _ :: _ => ⟨session.bound program, nextReference⟩
      | [] =>
          match Watching.interpret input.1 program (session.bound program) with
          | .ok _ after => ⟨after, nextReference⟩
          | .error _ after => ⟨after, nextReference⟩

/-- The session after several texts, each run within a number of steps. -/
def after (session : Watched) (inputs : List (Nat × String)) : Watched :=
  inputs.foldl proceed session

@[simp] theorem after_concat (session : Watched) (past : List (Nat × String))
    (input : Nat × String) :
    session.after (past ++ [input]) = (session.after past).proceed input := by
  simp [after]

/-- A watched text runs as it does unwatched. -/
theorem forget_proceed (session : Watched) (input : Nat × String) :
    (session.proceed input).forget = session.forget.proceed input := by
  obtain ⟨steps, source⟩ := input
  rw [proceed_eq]
  unfold proceed forget
  dsimp only
  cases (readProgram source session.nextReference).1 with
  | error failure => rfl
  | ok program =>
      dsimp only
      cases (bindProgram program session.watch.machine.distances).1 with
      | cons first rest => rfl
      | nil =>
          dsimp only
          have same := Watching.forgets_interpret steps program (session.bound program)
          change _ = interpret steps program (session.forget.bound program) at same
          unfold forget at same
          rw [← same]
          cases Watching.interpret steps program (session.bound program) <;> rfl

theorem forget_after (session : Watched) (inputs : List (Nat × String)) :
    (session.after inputs).forget = session.forget.after inputs := by
  induction inputs using List.reverseRecOn with
  | nil => rfl
  | append_singleton past input ih =>
      rw [after_concat, forget_proceed, ih, Session.after_concat]

end Watched

/-! ## What is watched is right -/

/-- `this` and `super` stand in classes at all visits of a session. -/
theorem Visited.guarded {start : Session} {inputs : List (Nat × String)} {visit : Visit}
    (visited : start.Visited inputs visit) : visit.Guarded := by
  have both : visit.node.Placed ∧ visit.Guarded := by
    apply visited.induction
    · exact fun earlier contains =>
        ⟨contains.placed earlier.1, contains.guarded earlier.1 earlier.2⟩
    · intro past steps source future program _ accepts front statement back listed
      have placed := (placed_of_read accepts.1).1
      rw [listed] at placed
      have outside : Receives (Analysis.start (start.after past).machine.distances).scopes
          (Analysis.start (start.after past).machine.distances).enclosure := .outside
      constructor
      · exact Stmt.listPlaced_iff.mp placed statement (by simp)
      · have loose : ∀ names ∈ ([] : List (List String)), ∀ name ∈ names, IsOrdinaryName name := by
          simp
        exact Visit.guarded_member outside loose placed
  exact both.2

/-- A watched session between two texts: everything is noted, and there is no
receiver. -/
structure Watched.Sound (session : Watched) : Prop where
  watch : session.watch.Sound
  around : session.watch.Around none

theorem Watched.sound_start (time : Native → Nat → Except String Float) (policy : SinkPolicy) :
    (Watched.start (Host.ofTime time) policy).Sound := by
  have unbound (name : String) (other : name ≠ clock.name) (scope : ScopeRef) :
      ((Machine.start (Host.ofTime time) policy).store.scope scope).get? name = none := by
    cases held : ((Machine.start (Host.ofTime time) policy).store.scope scope).get? name with
    | none => rfl
    | some value => exact absurd (held_start held).1 other
  constructor
  · constructor
    · intro scope name value held
      obtain ⟨rfl, rfl⟩ := held_start held
      trivial
    · rintro ⟨index⟩ name value held
      cases held
    · exact fun scope value held => absurd (held_start held).1 (by decide)
    · exact fun scope value held => absurd (held_start held).1 (by decide)
    · exact fun function calls arguments value answered => plain_ofTime arguments answered
    · exact fun sighting inside => nomatch inside
  · constructor
    · exact List.forall_mem_singleton.mpr Nat.zero_lt_one
    · exact Environment.receiver?_of_none (unbound "this" (by decide) globalScope)
    · exact Environment.superclass?_of_none (unbound "super" (by decide) globalScope)

/-- A program may be bound in between. -/
theorem Watched.Sound.bound {session : Watched} (sound : session.Sound) (program : List Stmt) :
    (session.bound program).Sound ∧ (session.bound program).Around none :=
  ⟨sound.watch.of_store rfl (Nat.le_refl _) rfl,
    sound.around.allocated, sound.around.holds, sound.around.closed⟩

/-- A text leaves a sound watched session behind, also where it fails. -/
theorem Watched.sound_proceed {session : Watched} (sound : session.Sound) {steps : Nat}
    {source : String}
    (runs : ∀ program, session.forget.Accepts source program →
      (session.bound program).Sound → (session.bound program).Around none →
      Watching.Keeps (Watching.interpret steps program) (session.bound program)
        fun _ _ => True) : (session.proceed (steps, source)).Sound := by
  have around : session.watch.Around none := sound.around
  unfold proceed
  dsimp only
  cases read : (readProgram source session.nextReference).1 with
  | error failure => exact ⟨sound.watch, around⟩
  | ok program =>
      obtain ⟨soundBound, aroundBound⟩ := sound.bound program
      dsimp only
      cases clean : (bindProgram program session.watch.machine.distances).1 with
      | cons first rest => exact ⟨soundBound, aroundBound⟩
      | nil =>
          have keeps := runs program ⟨read, clean⟩ soundBound aroundBound
          unfold Watching.Keeps at keeps
          dsimp only
          cases ran : Watching.interpret steps program (session.bound program) with
          | ok result after =>
              rw [ran] at keeps
              exact ⟨keeps.1.sound, aroundBound.grow keeps.1⟩
          | error halt after =>
              rw [ran] at keeps
              exact ⟨keeps.sound, aroundBound.grow keeps⟩

/-- All visits of a session are accepted against the distances of a program that is bound
in it. -/
theorem binds_bound {start : Session} {past : List (Nat × String)} {source : String}
    {program : List Stmt} (steps : Nat) (settled : Settled start past)
    (accepts : (start.after past).Accepts source program) :
    (start.survey (past ++ [(steps, source)])).Binds
      ((start.after past).bound program).distances := by
  constructor
  · exact fun visit visited => (settled.bound accepts visited).1
  · exact fun visit visited => Visited.guarded visited

/-- An accepted program keeps everything noted. -/
theorem Watched.keeps_accepted {start : Session} {past : List (Nat × String)} {session : Watched}
    (same : session.forget = start.after past) {steps : Nat} {source : String}
    (before : (start.after past).Sound (start.survey (past ++ [(steps, source)])))
    (settled : Settled start past) {program : List Stmt}
    (accepts : (start.after past).Accepts source program) (noted : (session.bound program).Sound)
    (around : (session.bound program).Around none) :
    Watching.Keeps (Watching.interpret steps program) (session.bound program)
      fun _ _ => True := by
  have binds := binds_bound steps settled accepts
  have machine : (session.bound program).machine = (start.after past).bound program :=
    congrArg (Session.bound · program) same
  have inside := inside_bound before program
  rw [← machine] at inside binds
  exact Watching.keeps_interpret binds (lists_of_accepts rfl accepts) rfl inside noted around

/-- A watched session is sound after any texts. -/
theorem Watched.sound_after (time : Native → Nat → Except String Float) (policy : SinkPolicy)
    (inputs : List (Nat × String)) :
    ((Watched.start (Host.ofTime time) policy).after inputs).Sound := by
  induction inputs using List.reverseRecOn with
  | nil => exact sound_start time policy
  | append_singleton past input ih =>
      obtain ⟨steps, source⟩ := input
      have same : ((start (Host.ofTime time) policy).after past).forget =
          (Session.start (Host.ofTime time) policy).after past := forget_after _ past
      have before := Session.sound_after (Session.sound_start
        ((Session.start (Host.ofTime time) policy).survey (past ++ [(steps, source)])) time policy)
        rfl
      rw [after_concat]
      apply sound_proceed ih
      rw [same]
      intro program accepts noted around
      exact keeps_accepted same before (settled_start time policy past) accepts noted around

/-- A watched session runs as it does unwatched, and every sight in it is right: `this`
is the object that the method around it was bound to, a method of the superclass
comes from the class that the superclass was found to be when its class was declared,
and an initializer yields its object. -/
theorem receivers_right (time : Native → Nat → Except String Float) (policy : SinkPolicy)
    (inputs : List (Nat × String)) :
    ((Watched.start (Host.ofTime time) policy).after inputs).forget =
        (Session.start (Host.ofTime time) policy).after inputs ∧
      ∀ sighting ∈ ((Watched.start (Host.ofTime time) policy).after inputs).watch.sightings,
        sighting.Right :=
  ⟨Watched.forget_after _ inputs, (Watched.sound_after time policy inputs).watch.right⟩

-- There is one sight of each kind here.
example :
    ((Watched.start (Host.ofTime fun _ _ => .error "no time") .unlimited).after
      [(20, "class A { m() { return this; } } " ++
        "class B < A { init() {} m() { return super.m(); } } B().m();")]).watch.sightings.length =
      3 := by
  decide +kernel

end Session

end Lox
