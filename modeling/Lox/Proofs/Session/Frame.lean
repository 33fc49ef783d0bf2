import Lox.Proofs.Reach.Frame
import Lox.Proofs.Session.Requests

/-!
# Out of reach in a session

In every session, each scope has one environment and each instance one class,
and nothing refers to what is not there. So what evaluation cannot reach, it
leaves alone.
-/

namespace Lox

/-- A host that tells the time has nothing to hand out. -/
theorem Host.conservative_ofTime (time : Native → Nat → Except String Float) :
    (Host.ofTime time).Conservative :=
  fun _ _ arguments _ answered part has =>
    ((Session.plain_ofTime arguments answered).not_has part has).elim

/-- On a fresh machine nothing is around the globals. -/
theorem Machine.shaped_start (host : Host) (policy : SinkPolicy) :
    (Machine.start host policy).Shaped ⟨fun _ => [], fun _ => default⟩ := by
  refine ⟨⟨⟨rfl, trivial⟩, ?_⟩, ?_⟩
  · intro reference member
    obtain rfl := List.mem_singleton.mp member
    exact Nat.zero_lt_one
  · intro location name value held part has
    cases location with
    | object reference => nomatch held
    | scope reference =>
        obtain ⟨-, rfl⟩ := Session.held_start held
        exact has.elim

namespace Session

/-- A session whose machine has a shape. -/
def IsShaped (session : Session) : Prop :=
  (∃ shape, session.machine.Shaped shape) ∧ session.machine.host.Conservative

/-- No request takes the shape away. -/
theorem keeps_isShaped (request : Request) : Keeps IsShaped request.perform := by
  apply keeps_perform
  · exact fun _ _ shaped => shaped
  · rintro session distances ⟨⟨shape, shaped⟩, host⟩
    exact ⟨⟨shape, shaped.environment, shaped.stored⟩, host⟩
  · rintro steps program session ⟨⟨shape, shaped⟩, host⟩
    exact shaped_interpret shaped host steps program
  · rintro steps value session ⟨⟨shape, shaped⟩, host⟩
    exact shaped_evaluate shaped host steps value

/-! ### Two closures of one function -/

namespace Marking

def word (text : String) : Token := ⟨.identifier, text, 1⟩

/-- `fun use() { return used = true; }` -/
def use : FunctionDecl :=
  ⟨word "use", [], [.returning (word "return")
    (some (.assign ⟨word "used", 0⟩ (.literal (.bool true))))]⟩

/-- `fun make() { var used; fun use() { return used = true; } return use; }` -/
def make : FunctionDecl :=
  ⟨word "make", [], [.var (word "used") none, .function use,
    .returning (word "return") (some (.variable ⟨word "use", 1⟩))]⟩

/-- A call without arguments. -/
def call (name : String) : Expr :=
  .call (.variable ⟨word name, 2⟩) (word ")") []

/-- A fresh machine for these declarations. -/
def fresh : Machine :=
  { Machine.start (Host.ofTime fun _ _ => .error "no time") .unlimited with
    distances := (Distances.empty.note 0 1).note 1 0 }

def maker : Closure := ⟨0, make, globalEnvironment, false⟩

/-- Before the first call of `make`. -/
def declared : Machine :=
  (interpret 9 [.function make]).behind fresh

/-- Once the first closure is kept. -/
def once : Machine :=
  (interpret 9 [.var (word "one") (some (call "make"))]).behind declared

/-- Once two closures are kept and a third one is lost. -/
@[irreducible] def thrice : Machine :=
  (interpret 9 [.var (word "other") (some (call "make")), .expression (call "make")]).behind once

/-- The closure that a call makes in a scope. -/
def made (identity scope : Nat) : Closure :=
  ⟨identity, use, [⟨scope⟩, globalScope], false⟩

theorem makes_declared : Moment.Makes ⟨5, .call (.function maker) [], declared⟩ (made 1 1) := by
  have shape : make.body = [.var (word "used") none] ++ .function use :: [_] := rfl
  exact ⟨_, .single ⟨.body rfl shape rfl, _, rfl⟩, .function rfl rfl⟩

theorem makes_once : Moment.Makes ⟨5, .call (.function maker) [], once⟩ (made 2 2) := by
  have shape : make.body = [.var (word "used") none] ++ .function use :: [_] := rfl
  exact ⟨_, .single ⟨.body rfl shape rfl, _, rfl⟩, .function rfl rfl⟩

theorem shaped_thrice : (∃ shape, thrice.Shaped shape) ∧ thrice.host.Conservative := by
  have start := Machine.shaped_start (Host.ofTime fun _ _ => .error "no time") .unlimited
  have shaped : fresh.Shaped _ := ⟨start.environment, start.stored⟩
  have host : fresh.host.Conservative := Host.conservative_ofTime fun _ _ => .error "no time"
  obtain ⟨⟨_, shaped⟩, host⟩ := shaped_interpret shaped host 9 [.function make]
  obtain ⟨⟨_, shaped⟩, host⟩ :=
    shaped_interpret shaped host 9 [.var (word "one") (some (call "make"))]
  unfold thrice
  exact shaped_interpret shaped host 9 _

/-- Whether a value refers to no scope but the globals and those of the first two calls. -/
def isInside : Value → Bool
  | .function closure => closure.environment.all (·.index < 3)
  | .cls _ | .object _ => false
  | .nil | .bool _ | .number _ | .string _ | .native _ => true

theorem checks_thrice :
    thrice.environment = globalEnvironment ∧
    ((List.range 3).all fun index =>
      (thrice.store.scope ⟨index⟩).entries.all fun entry => isInside entry.2) = true ∧
    (match (thrice.store.scope globalScope).get? "one",
        (thrice.store.scope globalScope).get? "other" with
    | some (.function one), some (.function other) =>
        one.environment == (made 1 1).environment && other.environment == (made 2 2).environment
    | _, _ => false) = true ∧
    (match Lox.evaluate 9 (call "one") thrice with
    | .ok (.bool true) after =>
        match (after.store.scope ⟨1⟩).get? "used" with
        | some (.bool true) => true
        | _ => false
    | _ => false) = true := by
  decide +kernel

/-- Nothing leads from the globals and from the two closures kept there to the third. -/
theorem unreached_thrice : ¬ thrice.Reaches [] (.scope ⟨3⟩) := by
  have inside {index : Nat} (below : index < 3) {name : String} {value : Value}
      (held : (thrice.store.scope ⟨index⟩).get? name = some value) : isInside value = true := by
    have all := List.all_eq_true.mp checks_thrice.2.1 index (List.mem_range.mpr below)
    exact List.all_eq_true.mp all (name, value) (Bindings.mem_of_get? held)
  rintro ⟨root, isRoot, path⟩
  have within (location : Location)
      (path : Relation.ReflTransGen thrice.store.Leads root location) :
      ∃ index < 3, location = .scope ⟨index⟩ := by
    induction path with
    | refl =>
        obtain rfl | around | ⟨_, given, -⟩ := isRoot
        · exact ⟨0, by decide, rfl⟩
        · cases root with
          | object reference => exact around.elim
          | scope reference =>
              rw [checks_thrice.1] at around
              exact ⟨0, by decide, congrArg _ (List.mem_singleton.mp around)⟩
        · nomatch given
    | @tail _ other _ leads ih =>
        obtain ⟨index, below, rfl⟩ := ih
        obtain ⟨name, value, part, held, has, mentions⟩ := leads
        have closed := inside below held
        cases value with
        | function closure =>
            obtain rfl := has
            cases other with
            | object reference => exact mentions.elim
            | scope reference =>
                have below := List.all_eq_true.mp closed reference mentions
                exact ⟨reference.index, of_decide_eq_true below, rfl⟩
        | cls | object => nomatch closed
        | nil | bool | number | string | native => exact has.elim
  obtain ⟨index, below, same⟩ := within _ path
  cases same
  exact absurd below (by decide)

end Marking

/-- Evaluation touches only what it can reach. Every machine that a session comes to has
a shape and a host that hands out nothing of its own. On such a machine, whatever is
evaluated, executed or called and however that ends, what was there and out of reach of
the globals, of the scopes around and of what is called with which arguments stays as it
was, and neither these nor the result reach it afterwards. In particular closures that
two calls of one function make share no scope of those calls. -/
theorem untouched_out_of_reach :
    (∀ time policy requests,
      ((Session.start (Host.ofTime time) policy).reach requests).IsShaped) ∧
    ∀ (machine : Machine) (shape : Shape), machine.Shaped shape → machine.host.Conservative →
      (∀ steps value,
        (Lox.evaluate steps value).Frames shape [] (fun result => [result]) machine) ∧
      (∀ steps statement, (execute steps statement).Frames shape [] Flow.values machine) ∧
      (∀ steps callable arguments line,
        (∀ value ∈ callable.value :: arguments, ∀ part, value.Has part →
          shape.Fits machine.store part) →
        (invoke steps callable arguments line).Frames shape (callable.value :: arguments)
          (fun result => [result]) machine) ∧
      ∀ closure first second one other, Moment.Calls first closure →
        Moment.Calls second closure →
        first.machine.store.scopes.size ≠ second.machine.store.scopes.size →
        first.Makes one → second.Makes other →
        shape.Fits machine.store (.environment one.environment) →
        shape.Fits machine.store (.environment other.environment) →
        ∃ own own', one.environment = own ++ closure.environment ∧
          other.environment = own' ++ closure.environment ∧ own.Disjoint own' := by
  refine ⟨fun time policy requests => ?_, fun machine shape shaped host => ⟨?_, ?_, ?_, ?_⟩⟩
  · exact reach_of_keeps keeps_isShaped
      ⟨⟨_, Machine.shaped_start _ policy⟩, Host.conservative_ofTime time⟩ requests
  · exact frames_evaluate shaped host
  · exact frames_execute shaped host
  · exact frames_invoke shaped host
  · exact fun _ _ _ _ _ calls calls' different makes makes' fits fits' =>
      disjoint_of_makes calls calls' different makes makes' fits fits'

open Marking in
/-- A closure is used while another one is kept and a third one is lost: the lost one
stays as it is and out of reach, and the two that are kept share only the globals. -/
theorem untouched_out_of_reach_thrice :
    ∃ shape, thrice.Shaped shape ∧ thrice.host.Conservative ∧
      thrice.store.Has (.scope ⟨3⟩) ∧ ¬ thrice.Reaches [] (.scope ⟨3⟩) ∧
      (∃ after, Lox.evaluate 9 (call "one") thrice = .ok (.bool true) after ∧
        (after.store.scope ⟨1⟩).get? "used" = some (.bool true) ∧
        after.store.scope ⟨3⟩ = thrice.store.scope ⟨3⟩ ∧
        ¬ after.Reaches [.bool true] (.scope ⟨3⟩)) ∧
      ∃ own own', (made 1 1).environment = own ++ maker.environment ∧
        (made 2 2).environment = own' ++ maker.environment ∧ own.Disjoint own' := by
  obtain ⟨⟨shape, shaped⟩, host⟩ := shaped_thrice
  obtain ⟨evaluated, -, -, apart⟩ := untouched_out_of_reach.2 thrice shape shaped host
  obtain ⟨-, -, kept, used⟩ := checks_thrice
  have has : thrice.store.Has (.scope ⟨3⟩) := by decide +kernel
  refine ⟨shape, shaped, host, has, unreached_thrice, ?_, ?_⟩
  · have framed := evaluated 9 (call "one")
    unfold Run.Frames at framed
    split at used
    · next after ran =>
        rw [ran] at framed
        split at used
        · next marked =>
            obtain ⟨-, same, unreached⟩ := framed.untouched _ has unreached_thrice
            exact ⟨after, ran, marked, same, unreached⟩
        · nomatch used
    · nomatch used
  · split at kept
    · next one other foundOne foundOther =>
        obtain ⟨sameOne, sameOther⟩ := Bool.and_eq_true_iff.mp kept
        have fitsOne := shaped.stored (.scope globalScope) _ _ foundOne _ rfl
        have fitsOther := shaped.stored (.scope globalScope) _ _ foundOther _ rfl
        rw [eq_of_beq sameOne] at fitsOne
        rw [eq_of_beq sameOther] at fitsOther
        exact apart maker _ _ _ _ ⟨[], rfl⟩ ⟨[], rfl⟩ (by decide +kernel) makes_declared makes_once
          fitsOne fitsOther
    · nomatch kept

end Session

end Lox
