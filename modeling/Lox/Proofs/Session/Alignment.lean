import Lox.Proofs.Evaluation.Depth
import Lox.Proofs.Origins.Moments

/-!
# What is evaluated at which visit

A run is aligned with the analysis of its texts. It comes to the statements of a program and
from there to their parts, and so does the analysis. A loop that starts another round stays
at its visit. The body of a function runs where the function is called, but it is aligned
with the visits in the declaration that has made the function.

Whatever is evaluated in a session is aligned with a visit, also where it uses no name. Its
environment is as deep as the scopes of the analysis at every visit with which it is aligned.
-/

namespace Lox

open Analysis (receiverScopes)

/-! ## Alignment -/

/-- A declaration makes functions that capture the environment around it. The methods of a
class do so inside the scopes for their receiver, where they are bound to an object. -/
inductive Moment.Captures : Moment → Closure → Prop where
  | function {steps identity : Nat} {declaration : FunctionDecl} {machine : Machine} :
      Captures ⟨steps, .node (.stmt (.function declaration)), machine⟩
        ⟨identity, declaration, machine.environment, false⟩
  | method {steps identity : Nat} {name : Token} {superclass : Option Expr}
      {methods : List FunctionDecl} {method : FunctionDecl} {machine : Machine}
      {receivers : List ScopeRef} {isInitializer : Bool} (among : method ∈ methods)
      (length : receivers.length = (receiverScopes superclass).length) :
      Captures ⟨steps, .node (.stmt (.classDecl name superclass methods)), machine⟩
        ⟨identity, method, receivers ++ machine.environment, isInitializer⟩

/-- A function is in the scopes that the analysis opens on the way to its body, but for the
one of the body itself. -/
theorem Moment.Captures.length_environment {declaring : Moment} {closure : Closure} {node : Node}
    (captures : declaring.Captures closure) (declared : declaring.activity = .node node)
    (statement : Stmt) :
    closure.environment.length + 1 =
      declaring.machine.environment.length + node.opens (.stmt statement) := by
  cases captures with
  | function =>
      cases declared
      rfl
  | method among length =>
      cases declared
      simp [Node.opens, length, Nat.add_comm, Nat.add_left_comm]

/-- The body of a function was visited in its declaration. -/
theorem Moment.Captures.contains {declaring : Moment} {closure : Closure} {visit : Visit}
    {front back : List Stmt} {statement : Stmt} (captures : declaring.Captures closure)
    (declared : declaring.activity = .node visit.node)
    (body : closure.declaration.body = front ++ statement :: back) :
    ∃ analysis loose, visit.Contains ⟨.stmt statement, analysis, loose⟩ := by
  obtain ⟨node, analysis, loose⟩ := visit
  cases captures with
  | function =>
      cases declared
      exact ⟨_, _, .functionBody body⟩
  | method among =>
      cases declared
      obtain ⟨earlier, later, rfl⟩ := List.append_of_mem among
      exact ⟨_, _, .methodBody body⟩

namespace Session

/-- A moment of the texts of a session is aligned with a visit in them. -/
inductive Aligned (start : Session) (inputs : List (Nat × String)) : Moment → Visit → Prop where
  /-- A statement of a program, where the run comes to it. -/
  | statement {past future : List (Nat × String)} {steps : Nat} {source : String}
      {program front back : List Stmt} {statement : Stmt} {reached : Machine}
      (split : inputs = past ++ (steps, source) :: future)
      (accepts : (start.after past).Accepts source program)
      (listed : program = front ++ statement :: back)
      (reach : Moment.Reached steps program ((start.after past).bound program) statement reached) :
      Aligned start inputs ⟨steps, .node (.stmt statement), reached⟩
        ⟨.stmt statement, Analysis.stmts front (.start (start.after past).machine.distances), []⟩
  /-- A part of what is evaluated. -/
  | part {moment next : Moment} {visit inner : Visit} (whole : Aligned start inputs moment visit)
      (enters : moment.Enters next) (contains : visit.Contains inner)
      (same : next.activity = .node inner.node) : Aligned start inputs next inner
  /-- A loop in its next round. -/
  | again {moment next : Moment} {visit : Visit} (whole : Aligned start inputs moment visit)
      (enters : moment.Enters next) (same : next.activity = .node visit.node) :
      Aligned start inputs next visit
  /-- A statement in the body of a function that is called. -/
  | body {past future : List (Nat × String)} {steps : Nat} {source : String}
      {declaring calling next : Moment} {visit inner : Visit} {closure : Closure}
      {arguments : List Value} (declared : Aligned start inputs declaring visit)
      (captures : declaring.Captures closure)
      (split : inputs = past ++ (steps, source) :: future)
      (occurs : start.Occurs past steps source calling)
      (calls : calling.activity = .call (.function closure) arguments)
      (enters : calling.Enters next) (contains : visit.Contains inner)
      (same : next.activity = .node inner.node) : Aligned start inputs next inner

namespace Aligned

variable {start : Session} {inputs : List (Nat × String)} {moment next : Moment} {visit : Visit}

/-- What is evaluated is what was visited. -/
theorem activity (aligned : start.Aligned inputs moment visit) :
    moment.activity = .node visit.node := by
  cases aligned with
  | statement => rfl
  | part _ _ _ same | again _ _ same | body _ _ _ _ _ _ _ same => exact same

/-- The visit was made in one of the texts. -/
theorem visited (aligned : start.Aligned inputs moment visit) : start.Visited inputs visit := by
  induction aligned with
  | statement split accepts listed _ =>
      exact ⟨_, _, _, _, _, split, accepts, _, _, _, listed, .refl⟩
  | part _ _ contains _ ih | body _ _ _ _ _ _ contains _ ih => exact ih.contains contains
  | again _ _ _ ih => exact ih

/-- From something evaluated to what it enters. -/
theorem enters {node : Node} (aligned : start.Aligned inputs moment visit)
    (enters : moment.Enters next) (evaluated : next.activity = .node node) :
    ∃ inner, start.Aligned inputs next inner := by
  rcases enters.contains aligned.activity evaluated with rfl | ⟨analysis, loose, contains⟩
  · exact ⟨visit, aligned.again enters evaluated⟩
  · exact ⟨_, aligned.part enters contains evaluated⟩

/-- The environment is as deep as the scopes at the visit, with the globals behind them. -/
theorem length_environment {time : Native → Nat → Except String Float} {policy : SinkPolicy}
    (aligned : (Session.start (Host.ofTime time) policy).Aligned inputs moment visit) :
    moment.machine.environment.length = visit.analysis.scopes.length + 1 := by
  induction aligned with
  | @statement past future steps source program front back statement reached _ _ _ reach =>
      have outside := (sound_before time policy past (steps, source)).outside
      have around : reached.environment = globalEnvironment :=
        reach.back.environment.trans outside
      simp [around, globalEnvironment, Analysis.scopes_stmts, Analysis.start]
  | part whole enters contains same ih =>
      rw [enters.length_environment whole.activity same, contains.length_scopes, ih]
      omega
  | again whole enters same ih =>
      rw [enters.length_environment whole.activity same, enters.opens_self whole.activity same,
        ih, Nat.add_zero]
  | body declared captures _ _ calls enters contains same ih =>
      obtain ⟨⟨statement, shape⟩, deep⟩ := enters.of_body calls same
      have kept := captures.length_environment declared.activity statement
      rw [deep, kept, contains.length_scopes, ih, shape]
      omega

end Aligned

/-! ## Every moment is aligned -/

variable {time : Native → Nat → Except String Float} {policy : SinkPolicy}
variable {past : List (Nat × String)} {steps : Nat} {source : String}
variable {moment : Moment} {node : Node}

/-- Functions that aligned declarations make. Any name may be global. -/
def declared (start : Session) (inputs : List (Nat × String)) : Origins where
  name _ := True
  function closure :=
    ∃ moment visit, start.Aligned inputs moment visit ∧ moment.Captures closure

/-- A moment of a text at which either a call starts or something is aligned. -/
def Follows (start : Session) (inputs past : List (Nat × String)) (steps : Nat)
    (source : String) (moment : Moment) : Prop :=
  start.Occurs past steps source moment ∧
    ∀ node, moment.activity = .node node → ∃ visit, start.Aligned inputs moment visit

theorem Occurs.enters {start : Session} {next : Moment}
    (occurs : start.Occurs past steps source moment) (enters : moment.Enters next) :
    start.Occurs past steps source next := by
  obtain ⟨program, accepts, statement, reached, reach, happens⟩ := occurs
  exact ⟨program, accepts, statement, reached, reach, happens.tail enters⟩

/-- Parts of what is aligned are aligned, and so are the bodies of functions that aligned
declarations have made. -/
theorem covers_follows {inputs future : List (Nat × String)}
    (split : inputs = past ++ (steps, source) :: future) :
    ((Session.start (Host.ofTime time) policy).declared inputs).Covers
      ((Session.start (Host.ofTime time) policy).Follows inputs past steps source) where
  enters here enters := by
    refine ⟨here.1.enters enters, fun node evaluated => ?_⟩
    obtain ⟨visit, aligned⟩ := here.2 _ rfl
    exact aligned.enters enters evaluated
  calls here permitted enters := by
    refine ⟨here.1.enters enters, fun node evaluated => ?_⟩
    cases enters with
    | construct => cases evaluated
    | body opened shape ran =>
        obtain ⟨declaring, visit, aligned, captures⟩ := permitted
        obtain ⟨analysis, loose, contains⟩ := captures.contains aligned.activity shape
        exact ⟨_, aligned.body captures split here.1 rfl (.body opened shape ran) contains rfl⟩
  apart here distance noted := by
    obtain ⟨sound, accepted⟩ := here.1.sound rfl (sound_start _ time policy)
    exact sound.apart accepted noted
  function here identity := by
    obtain ⟨visit, aligned⟩ := here.2 _ rfl
    exact ⟨_, visit, aligned, .function⟩
  methods here method among identity isInitializer opened length other scope := by
    obtain ⟨visit, aligned⟩ := here.2 _ rfl
    refine ⟨_, visit, aligned, ?_⟩
    rw [← List.cons_append]
    apply Moment.Captures.method among
    rw [Analysis.length_receiverScopes, List.length_cons, length]

/-- A statement of an accepted program, where the run comes to it. -/
theorem follows_of_reached {inputs future : List (Nat × String)} {program : List Stmt}
    {statement : Stmt} {reached : Machine} {start : Session}
    (split : inputs = past ++ (steps, source) :: future)
    (accepts : (start.after past).Accepts source program)
    (reach : Moment.Reached steps program ((start.after past).bound program) statement reached) :
    start.Follows inputs past steps source ⟨steps, .node (.stmt statement), reached⟩ := by
  refine ⟨⟨program, accepts, _, _, reach, .refl⟩, fun node evaluated => ?_⟩
  cases evaluated
  obtain ⟨front, back, listed⟩ := List.append_of_mem reach.mem
  exact ⟨_, .statement split accepts listed reach⟩

/-- Whatever is evaluated in a session is aligned with a visit. -/
theorem Occurs.aligned
    (occurs : (Session.start (Host.ofTime time) policy).Occurs past steps source moment)
    (evaluated : moment.activity = .node node) :
    ∃ visit, (Session.start (Host.ofTime time) policy).Aligned (past ++ [(steps, source)])
      moment visit := by
  have free (name : String) : ((Session.start (Host.ofTime time) policy).declared
      (past ++ [(steps, source)])).name name := trivial
  have permits : ((Session.start (Host.ofTime time) policy).declared
      (past ++ [(steps, source)])).Permits
        ((Session.start (Host.ofTime time) policy).after past).machine := by
    apply permits_after time policy (free _) past _ fun _ name _ => free name
    intro earlier later steps' source' program shape accepts
    have split : past ++ [(steps, source)] =
        earlier ++ (steps', source') :: (later ++ [(steps, source)]) := by simp [shape]
    exact ⟨_, covers_follows split, fun _ _ reach => follows_of_reached split accepts reach⟩
  obtain ⟨program, accepts, happens⟩ := occurs
  have known := Origins.known_of_occurs (covers_follows rfl) free
    (fun _ _ reach => follows_of_reached rfl accepts reach) (permits.of_same rfl rfl) happens
  exact known.1.2 node evaluated

/-- Whatever is evaluated in a session is aligned with a visit, which is the only visit of it
if a name is used in it. The environment has as many links to the globals as the analysis
had scopes there, and at every other visit with which the moment is aligned. So a noted
distance leads to a local scope. -/
theorem links_agree (time : Native → Nat → Except String Float) (policy : SinkPolicy)
    (occurs : (Session.start (Host.ofTime time) policy).Occurs past steps source moment)
    (evaluated : moment.activity = .node node) :
    ∃ visit,
      (Session.start (Host.ofTime time) policy).Aligned (past ++ [(steps, source)])
        moment visit ∧
      (Session.start (Host.ofTime time) policy).Visited (past ++ [(steps, source)]) visit ∧
      visit.node = node ∧
      (∀ other, (Session.start (Host.ofTime time) policy).Visited (past ++ [(steps, source)])
        other → other.node = node → node.numbers ≠ [] → other = visit) ∧
      moment.machine.environment.Links visit.analysis.scopes.length ∧
      (∀ other, (Session.start (Host.ofTime time) policy).Aligned (past ++ [(steps, source)])
        moment other → moment.machine.environment.Links other.analysis.scopes.length) ∧
      ∀ reference distance, node.reference? = some reference →
        moment.machine.distances.get? reference.id = some distance →
        ∃ scope outer, moment.machine.environment.ancestor? distance = some (scope :: outer) ∧
          scope ≠ globalScope := by
  obtain ⟨⟨_, _, stands⟩, accepted⟩ := occurs.sound rfl (sound_start _ time policy)
  rw [evaluated] at stands
  obtain ⟨analysis, loose, stands⟩ := stands
  obtain ⟨visit, aligned⟩ := occurs.aligned evaluated
  -- The environment is made of links, and its length says how many there are at each visit.
  have linked (other : Visit) (same : (Session.start (Host.ofTime time) policy).Aligned
      (past ++ [(steps, source)]) moment other) :
      moment.machine.environment.Links other.analysis.scopes.length := by
    have count := stands.links.length.symm.trans same.length_environment
    exact Nat.succ.inj count ▸ stands.links
  have shape : visit.node = node := Activity.node.inj (aligned.activity.symm.trans evaluated)
  refine ⟨visit, aligned, aligned.visited, shape, ?_, linked visit aligned, linked, ?_⟩
  · intro other visited same numbers
    obtain ⟨number, inside⟩ := List.exists_mem_of_ne_nil _ numbers
    rw [← shape] at same inside
    exact visited.unique (settled_start time policy) aligned.visited same (same ▸ inside)
  · intro reference distance use noted
    rw [← shape] at use
    rw [(accepted _ aligned.visited).distance use] at noted
    exact (linked visit aligned).ancestor (lt_of_nearest noted)

theorem links_agree_use : ∃ moment node reference,
    silent.Occurs [] 9 "{ var a; a; }" moment ∧ moment.activity = .node node ∧
    node.reference? = some reference ∧
    moment.machine.distances.get? reference.id = some 0 ∧
    ∃ scope outer, moment.machine.environment.ancestor? 0 = some (scope :: outer) ∧
      scope ≠ globalScope := by
  obtain ⟨_, reference, machine, _, occurs, noted⟩ := occurs_use
  obtain ⟨_, _, _, _, _, _, _, ancestors⟩ := links_agree _ .unlimited occurs rfl
  exact ⟨_, _, reference, occurs, rfl, rfl, noted, ancestors reference 0 rfl noted⟩

end Session

end Lox
