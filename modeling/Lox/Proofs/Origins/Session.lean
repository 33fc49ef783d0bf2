import Lox.Proofs.Origins.Evaluation
import Lox.Proofs.Session.Agreement

/-!
# Sessions keep to permitted origins

A text that is accepted after others runs on a machine on which all moments are sound. So
only what its program declares has to be permitted for the session to keep to permitted
origins, and this goes on from text to text.
-/

namespace Lox

variable {survey : Survey} {distances : Distances}

/-- No distance that is noted for an assignment leads to the globals. -/
theorem Moment.Sound.apart {steps distance : Nat} {reference : Reference} {value : Expr}
    {machine : Machine}
    (here : Sound survey distances ⟨steps, .node (.expr (.assign reference value)), machine⟩)
    (accepted : ∀ visit, survey.visited visit → visit.Accepted distances)
    (noted : machine.distances.get? reference.id = some distance) :
    machine.environment.scopeAt? distance ≠ some globalScope := by
  obtain ⟨-, same, analysis, loose, stands⟩ := here
  have found := (accepted _ stands.visited).distance rfl
  rw [← same, noted] at found
  obtain ⟨scope, outer, there, apart⟩ := stands.links.ancestor (lt_of_nearest found.symm)
  rw [← Environment.head?_ancestor?, there]
  exact fun same => apart (Option.some.inj same)

namespace Origins

/-- Where functions are told by their declarations, it is enough to permit those that are
visited. -/
theorem covers_sound {name : String → Prop} {declaration : FunctionDecl → Prop}
    (accepted : ∀ visit, survey.visited visit → visit.Accepted distances)
    (function : ∀ {declared : FunctionDecl} {analysis : Analysis} {loose : List (List String)},
      survey.visited ⟨.stmt (.function declared), analysis, loose⟩ → declaration declared)
    (methods : ∀ {name : Token} {superclass : Option Expr} {methods : List FunctionDecl}
        {analysis : Analysis} {loose : List (List String)},
      survey.visited ⟨.stmt (.classDecl name superclass methods), analysis, loose⟩ →
        ∀ method ∈ methods, declaration method) :
    (ofDeclarations name declaration).Covers (Moment.Sound survey distances) where
  enters here enters := here.enters enters
  calls here _ enters := here.enters enters
  apart here _ noted := here.apart accepted noted
  function here _ := by
    obtain ⟨analysis, loose, visited, -⟩ := here.stmt
    exact function visited
  methods here method among _ _ _ _ _ _ := by
    obtain ⟨analysis, loose, visited, -⟩ := here.stmt
    exact methods visited method among

/-- Something is known of every statement that the run of a program comes to, and it is
enough for permitted origins. -/
def CoversRun (origins : Origins) (steps : Nat) (program : List Stmt) (machine : Machine) : Prop :=
  ∃ known : Moment → Prop, origins.Covers known ∧
    ∀ statement reached, Moment.Reached steps program machine statement reached →
      known ⟨steps, .node (.stmt statement), reached⟩

end Origins

namespace Session

variable {start : Session} {past : List (Nat × String)} {steps : Nat} {source : String}
variable {program : List Stmt} {origins : Origins}

/-- The run of an accepted program is sound at each statement as it comes to it. -/
theorem sound_of_accepts
    (sound : (start.after past).Sound (start.survey (past ++ [(steps, source)])))
    (accepts : (start.after past).Accepts source program) (statement : Stmt) (reached : Machine)
    (reach : Moment.Reached steps program ((start.after past).bound program) statement reached) :
    Moment.Sound (start.survey (past ++ [(steps, source)]))
      ((start.after past).bound program).distances ⟨steps, .node (.stmt statement), reached⟩ :=
  Moment.sound_of_reached (lists_of_accepts rfl accepts) rfl (inside_bound sound program) reach

/-- A text leaves a permitted machine behind, if everything that its program declares is
permitted in case it runs. -/
theorem permits_proceed
    (covers : ∀ program, (start.after past).Accepts source program →
      origins.CoversRun steps program ((start.after past).bound program))
    (declared : ∀ program, (start.after past).Accepts source program →
      ∀ name ∈ Stmt.listDeclares program, origins.name name)
    (permits : origins.Permits (start.after past).machine) :
    origins.Permits ((start.after past).proceed (steps, source)).machine := by
  rw [proceed_eq]
  cases read : (readProgram source (start.after past).nextReference).1 with
  | error failure => exact permits
  | ok program =>
      dsimp only
      cases clean : (bindProgram program (start.after past).machine.distances).1 with
      | cons first rest => exact permits.of_same rfl rfl
      | nil =>
          have accepts : (start.after past).Accepts source program := ⟨read, clean⟩
          have permitsBound : origins.Permits ((start.after past).bound program) :=
            permits.of_same rfl rfl
          obtain ⟨known, covered, comes⟩ := covers program accepts
          have behind := (Origins.keeps_interpret covered comes permitsBound
            (declared program accepts)).behind
          unfold Run.behind at behind
          dsimp only
          cases ran : interpret steps program ((start.after past).bound program) <;>
            rw [ran] at behind <;> exact behind

/-- A fresh machine binds the clock and holds nothing but it. -/
theorem permits_start (time : Native → Nat → Except String Float) (policy : SinkPolicy)
    (clock : origins.name clock.name) :
    origins.Permits (Session.start (Host.ofTime time) policy).machine := by
  constructor
  · exact Nat.zero_lt_one
  · intro name bound
    obtain ⟨value, held⟩ := Option.isSome_iff_exists.mp bound
    exact (held_start held).1 ▸ clock
  · intro scope name value held
    obtain ⟨rfl, rfl⟩ := held_start held
    trivial
  · rintro ⟨index⟩ name value held
    cases held
  · exact fun function calls arguments value answered =>
      Origins.permits_of_isPlain (plain_ofTime arguments answered)

section Start

variable (time : Native → Nat → Except String Float) (policy : SinkPolicy)

/-- The machine in front of a text is sound, with the text among those that are listed. -/
theorem sound_before (past : List (Nat × String)) (input : Nat × String) :
    ((Session.start (Host.ofTime time) policy).after past).Sound
      ((Session.start (Host.ofTime time) policy).survey (past ++ [input])) :=
  sound_after (sound_start _ time policy) rfl

/-- What is enough for every survey against which all visits are accepted is enough for
the run of an accepted program. -/
theorem coversRun_of_accepts
    (covers : ∀ {survey : Survey} {distances : Distances},
      (∀ visit, survey.visited visit → visit.Accepted distances) →
      origins.Covers (Moment.Sound survey distances))
    (accepts : ((Session.start (Host.ofTime time) policy).after past).Accepts source program) :
    origins.CoversRun steps program
      (((Session.start (Host.ofTime time) policy).after past).bound program) :=
  ⟨_, covers fun _ visited => ((settled_start time policy past).bound accepts visited).1,
    sound_of_accepts (sound_before time policy past (steps, source)) accepts⟩

/-- A session keeps to origins that permit what accepted programs declare. -/
theorem permits_after (clock : origins.name clock.name) (past : List (Nat × String))
    (covers : ∀ {earlier later : List (Nat × String)} {steps : Nat} {source : String}
        {program : List Stmt}, past = earlier ++ (steps, source) :: later →
      ((Session.start (Host.ofTime time) policy).after earlier).Accepts source program →
      origins.CoversRun steps program
        (((Session.start (Host.ofTime time) policy).after earlier).bound program))
    (declared : ∀ {source : String} {next : Nat} {program : List Stmt},
      (readProgram source next).1 = .ok program →
      ∀ name ∈ Stmt.listDeclares program, origins.name name) :
    origins.Permits ((Session.start (Host.ofTime time) policy).after past).machine := by
  induction past using List.reverseRecOn with
  | nil => exact permits_start time policy clock
  | append_singleton past input ih =>
      rw [after_concat]
      apply permits_proceed (fun program => covers rfl) fun program accepts => declared accepts.1
      apply ih
      intro earlier later steps source program shape
      have whole : past ++ [input] = earlier ++ (steps, source) :: (later ++ [input]) := by
        simp [shape]
      exact covers whole

end Start

end Session

end Lox
