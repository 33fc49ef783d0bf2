import Lox.Proofs.Receivers.Moments
import Lox.Proofs.Returning.Unwinding
import Lox.Proofs.Session.Receivers

/-!
# Returning in a session

In every run of an accepted program a `return` ends one activation: the one of the
function that it stands in, at once and with its value, while the caller goes on in
the place where it made the call.
-/

namespace Lox

/-! ## Results of calls -/

/-- What a call yields with a record of its body: the object that an initializer is bound
to, and otherwise the value of the only `return` in the record, which ends it, or `nil`
where there is none. -/
def Closure.Yields (closure : Closure) (machine : Machine) (record : List Event)
    (result : Value) : Prop :=
  ∃ flow : Flow, flow.Unwinds record ∧
    if closure.isInitializer then
      ∃ object, closure.environment.lookupAt? machine.store 0 "this" = some (.object object) ∧
        result = .object object
    else result = flow.value

namespace Moment

/-- A moment at which a call is made goes on behind it in the same place: an expression
has the result of the call as its value, and a class yields an object. -/
def GoesOn (caller : Moment) (result : Value) (after : Machine) : Prop :=
  caller.machine.Back after ∧
    match caller.activity with
    | .node (.expr value) => evaluate caller.steps value caller.machine = .ok result after
    | .node (.stmt _) => False
    | .call callable arguments => ∃ object, ∀ line,
        invoke caller.steps callable arguments line caller.machine = .ok (.object object) after

/-- Whatever calls a function goes on behind the call. -/
theorem goesOn_of_enters {caller : Moment} {steps : Nat} {closure : Closure}
    {arguments : List Value} {machine after : Machine} {line : Nat} {result : Value}
    (enters : caller.Enters ⟨steps + 1, .call (.function closure) arguments, machine⟩)
    (ran : invoke (steps + 1) (.function closure) arguments line machine = .ok result after) :
    caller.GoesOn result after := by
  obtain ⟨limit, activity, before⟩ := caller
  cases enters with
  | @call _ _ first _ callee paren values function _ _ ranCallee collected found enough =>
      have whole : evaluate (steps + 2) (.call callee paren values) before = .ok result after := by
        refine (bind_of_ok ranCallee).trans ((bind_of_ok collected).trans ?_)
        simp only [found]
        rw [if_pos enough]
        exact ran
      have back := (restoresWithin (steps + 2)).evaluate (.call callee paren values) before
      rw [Run.behind_ok whole] at back
      exact ⟨back, whole⟩
  | @construct _ _ first _ found _ object method _ created initializes bound =>
      have whole (line : Nat) : invoke (steps + 2) (.cls found) arguments line before =
          .ok (.object object) after := by
        refine (bind_of_ok created).trans ?_
        simp only [initializes]
        exact (bind_of_ok bound).trans (bind_of_ok ran)
      have back := (restoresWithin (steps + 2)).invoke (.cls found) arguments 0 before
      rw [Run.behind_ok (whole 0)] at back
      exact ⟨back, object, whole⟩

end Moment

namespace Session

/-- Every moment in the run of an accepted program is sound and can be watched. -/
theorem attended_of_occurs (time : Native → Nat → Except String Float) (policy : SinkPolicy)
    (past : List (Nat × String)) {steps : Nat} {source : String} {program : List Stmt}
    {moment : Moment}
    (accepts : ((Session.start (Host.ofTime time) policy).after past).Accepts source program)
    (occurs : Moment.Occurs steps program
      (((Session.start (Host.ofTime time) policy).after past).bound program) moment) :
    ∃ survey distances, Survey.Binds survey distances ∧ moment.Sound survey distances ∧
      moment.Attended := by
  have same : ((Watched.start (Host.ofTime time) policy).after past).forget =
      (Session.start (Host.ofTime time) policy).after past := Watched.forget_after _ past
  obtain ⟨noted, around⟩ := (Watched.sound_after time policy past).bound program
  have binds := binds_bound steps (settled_start time policy past) accepts
  have before := sound_after (sound_start ((Session.start (Host.ofTime time) policy).survey
    (past ++ [(steps, source)])) time policy) rfl
  have inside := inside_bound before program
  have lists : ((Session.start (Host.ofTime time) policy).survey
      (past ++ [(steps, source)])).Lists program
        (.start ((Session.start (Host.ofTime time) policy).after past).machine.distances) [] :=
    lists_of_accepts rfl accepts
  have sound := Moment.sound_of_occurs lists rfl inside occurs
  have machine : (((Watched.start (Host.ofTime time) policy).after past).bound program).machine =
      ((Session.start (Host.ofTime time) policy).after past).bound program :=
    congrArg (Session.bound · program) same
  rw [← machine] at inside occurs binds sound
  exact ⟨_, _, binds, sound,
    Moment.attended_of_occurs binds lists rfl inside noted around occurs⟩

/-- A `return` ends exactly one activation. In the run of an accepted program no statement
outside of all functions returns. And where a call of a function ends, at most one
`return` has been executed in its body, nothing of the body comes after that one, the
call yields its value, or the object of an initializer, and the caller goes on. -/
theorem return_unwinds (time : Native → Nat → Except String Float) (policy : SinkPolicy)
    (past : List (Nat × String)) (steps : Nat) (source : String) (program : List Stmt)
    (accepts : ((Session.start (Host.ofTime time) policy).after past).Accepts source program) :
    let machine := ((Session.start (Host.ofTime time) policy).after past).bound program
    (∀ statement reached flow after, Moment.Reached steps program machine statement reached →
      execute steps statement reached = .ok flow after → flow = .normal) ∧
    ∀ limit closure arguments line before result after,
      Moment.Occurs steps program machine
        ⟨limit + 1, .call (.function closure) arguments, before⟩ →
      invoke (limit + 1) (.function closure) arguments line before = .ok result after →
      (∃ record, Recording.call limit closure arguments [] before = .ok (result, record) after ∧
        closure.Yields before record result) ∧
      ∀ caller : Moment,
        caller.Enters ⟨limit + 1, .call (.function closure) arguments, before⟩ →
        caller.GoesOn result after := by
  constructor
  · intro statement reached flow after reach ran
    have outside := Stmt.outside_of_accepted accepts.2 statement reach.mem
    exact outside.neverReturns steps reached flow after ran
  · intro limit closure arguments line before result after occurs ran
    obtain ⟨survey, distances, binds, sound, attended⟩ :=
      attended_of_occurs time policy past accepts occurs
    constructor
    · -- The call runs in the same way with a record of its statements beside it.
      obtain ⟨record, recorded⟩ :=
        (Recording.forgets_call limit closure arguments line).exists_record [] ran
      refine ⟨record, recorded, ?_⟩
      obtain ⟨_, _, _, lists, _⟩ := sound.2.2.1
      have placed := lists.placed
      obtain ⟨_, rfl, flow, unwinds, valued⟩ :=
        Recording.unwinds_call limit arguments placed [] before result record after recorded
      refine ⟨flow, unwinds, ?_⟩
      split
      · next initializes => exact attended.initializer binds sound initializes ran
      · next plain => exact valued (Bool.eq_false_iff.mpr plain)
    · exact fun caller enters => Moment.goesOn_of_enters enters ran

/-! ### A loop that is left -/

namespace Leaving

/-- What a text comes to that calls its only function, without arguments. -/
structure Called where
  program : List Stmt
  closure : Closure
  machine : Machine
  result : Value
  after : Machine

/-- The first call in a text that is run in a session where nothing has run yet. -/
def call? (source : String) : Option Called :=
  match (readProgram source 0).1 with
  | .ok [.function declaration, .expression (.call (.variable reference) paren [])] =>
      let program := [.function declaration,
        .expression (.call (.variable reference) paren [])]
      match (bindProgram program .empty).1,
          execute 9 (.function declaration) (silent.bound program) with
      | [], .ok _ middle =>
          match Lox.evaluate 7 (.variable reference) middle with
          | .ok (.function closure) machine =>
              match invoke 7 (.function closure) [] 1 machine with
              | .ok result after =>
                  if closure.declaration.parameters = [] then
                    some ⟨program, closure, machine, result, after⟩
                  else none
              | .error _ _ => none
          | _ => none
      | _, _ => none
  | _ => none

theorem occurs_of_call {source : String} {called : Called} (found : call? source = some called) :
    silent.Accepts source called.program ∧
      Moment.Occurs 9 called.program (silent.bound called.program)
        ⟨7, .call (.function called.closure) [], called.machine⟩ ∧
      invoke 7 (.function called.closure) [] 1 called.machine = .ok called.result called.after := by
  unfold call? at found
  split at found
  case h_2 => cases found
  next declaration reference paren read =>
    dsimp only at found
    split at found
    case h_2 => cases found
    next flow middle clean declared =>
      split at found
      case h_2 => cases found
      next closure machine evaluated =>
        split at found
        case h_2 => cases found
        next result after ran =>
          obtain ⟨bare, ⟨⟩⟩ := Option.ite_none_right_eq_some.mp found
          have enough : ([] : List Value).length = (Callable.function closure).arity := by
            simp [Callable.arity, Closure.arity, bare]
          refine ⟨⟨read, clean⟩, ⟨_, _, .later declared .here, ?_⟩, ran⟩
          exact (Relation.ReflTransGen.single .effect).tail (.call evaluated rfl rfl enough)

theorem called : (call? "fun f() { while (true) { return nil; } } f();").isSome = true := by
  decide +kernel

end Leaving

/-- A function that leaves an endless loop. -/
theorem return_unwinds_endless_loop : ∃ program closure before result after,
    silent.Accepts "fun f() { while (true) { return nil; } } f();" program ∧
      Moment.Occurs 9 program (silent.bound program) ⟨7, .call (.function closure) [], before⟩ ∧
      invoke 7 (.function closure) [] 1 before = .ok result after ∧
      (∃ record, Recording.call 6 closure [] [] before = .ok (result, record) after ∧
        closure.Yields before record result) ∧
      ∀ caller : Moment, caller.Enters ⟨7, .call (.function closure) [], before⟩ →
        caller.GoesOn result after := by
  obtain ⟨called, found⟩ := Option.isSome_iff_exists.mp Leaving.called
  obtain ⟨accepts, occurs, ran⟩ := Leaving.occurs_of_call found
  obtain ⟨-, calls⟩ := return_unwinds _ _ [] 9 _ called.program accepts
  exact ⟨called.program, called.closure, called.machine, called.result, called.after, accepts,
    occurs, ran, calls 6 called.closure [] 1 called.machine called.result called.after occurs ran⟩

end Session

end Lox
