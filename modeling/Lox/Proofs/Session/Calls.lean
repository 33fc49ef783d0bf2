import Lox.Proofs.Binding.Parameters
import Lox.Proofs.Origins.Moments

/-!
# Calls pass each argument to its parameter

A call evaluates its callee and then each argument once, from left to right. Only then is
the number of arguments compared with the number that the callee takes. Where the two agree,
the body that runs, of a function, of a method, or of the initializer of a class, starts in
a new scope that has each parameter with the argument at its place and nothing else. The
parameters are distinct since the declaration has been accepted.
-/

namespace Lox

/-! ## Expressions in turn -/

/-- Expressions evaluated in turn, each of them once, on the machine that those in front of
it leave behind. -/
inductive InTurn (steps : Nat) : Machine → List Expr → List Value → Machine → Prop where
  | nil {machine : Machine} : InTurn steps machine [] [] machine
  | cons {before middle after : Machine} {first : Expr} {rest : List Expr} {value : Value}
      {values : List Value} (ran : evaluate steps first before = .ok value middle)
      (later : InTurn steps middle rest values after) :
      InTurn steps before (first :: rest) (value :: values) after

variable {steps : Nat} {before middle after : Machine} {expressions : List Expr}
variable {values : List Value}

theorem InTurn.length (inTurn : InTurn steps before expressions values after) :
    values.length = expressions.length := by
  induction inTurn with
  | nil => rfl
  | cons _ _ ih => exact congrArg Nat.succ ih

theorem Run.collect_cons_ok {first : Expr} {rest : List Expr} {value : Value}
    (ran : evaluate steps first before = .ok value middle) :
    Run.collect (evaluate steps) (first :: rest) before =
      match Run.collect (evaluate steps) rest middle with
      | .ok values after => .ok (value :: values) after
      | .error halt after => .error halt after := by
  rw [collect, step_bind, ran]
  dsimp only
  rw [step_bind]
  cases Run.collect (evaluate steps) rest middle <;> rfl

theorem Run.collect_of_inTurn (inTurn : InTurn steps before expressions values after) :
    Run.collect (evaluate steps) expressions before = .ok values after := by
  induction inTurn with
  | nil => rfl
  | cons ran _ ih => rw [collect_cons_ok ran, ih]

/-- Expressions are evaluated in turn, up to one that fails. -/
theorem inTurn_or_fails (steps : Nat) (expressions : List Expr) (before : Machine) :
    (∃ values after, InTurn steps before expressions values after) ∨
      ∃ front failing back values middle halt after, expressions = front ++ failing :: back ∧
        InTurn steps before front values middle ∧
        evaluate steps failing middle = .error halt after ∧
        Run.collect (evaluate steps) expressions before = .error halt after := by
  induction expressions generalizing before with
  | nil => exact .inl ⟨[], before, .nil⟩
  | cons first rest ih =>
      cases ran : evaluate steps first before with
      | error halt after =>
          refine .inr ⟨[], first, rest, [], before, halt, after, rfl, .nil, ran, ?_⟩
          rw [Run.collect, Run.step_bind, ran]
      | ok value middle =>
          rcases ih middle with ⟨values, after, inTurn⟩ |
            ⟨front, failing, back, values, last, halt, after, rfl, inTurn, failed, collected⟩
          · exact .inl ⟨value :: values, after, .cons ran inTurn⟩
          · refine .inr ⟨first :: front, failing, back, value :: values, last, halt, after, rfl,
              .cons ran inTurn, failed, ?_⟩
            rw [Run.collect_cons_ok ran, collected]

/-! ## What is called -/

/-- A function that is called with arguments on a machine runs its body in a new scope
inside of its environment. That scope has each parameter with the argument at its place. -/
structure Closure.Starts (closure : Closure) (arguments : List Value) (machine : Machine) :
    Prop where
  fresh : ∀ scope ∈ closure.environment, scope.index < machine.store.scopes.size
  runs : ∃ bindings, closure.Receives arguments bindings ∧
    ∀ steps line, invoke (steps + 1) (.function closure) arguments line machine =
      (do
        let flow ← Run.within (⟨machine.store.scopes.size⟩ :: closure.environment)
          (Flow.sequence (execute steps) closure.declaration.body)
        closure.result flow)
        { machine with store := (machine.store.addScope bindings).2 }

/-- What a callable does with arguments on a machine. A class starts the initializer that it
declares or inherits, on a new object; without one it takes no arguments. -/
inductive Callable.Starts (arguments : List Value) (machine : Machine) : Callable → Prop where
  | native {host : Native}
      (passes : ∀ steps line, invoke (steps + 1) (.native host) arguments line machine =
        Run.callHost host arguments line machine) :
      Starts arguments machine (.native host)
  | function {closure : Closure} (starts : closure.Starts arguments machine) :
      Starts arguments machine (.function closure)
  | initializer {found : Class} {initializer bound : Closure} {object : Instance}
      {created opened : Machine} (declared : found.initializer? = some initializer)
      (made : Run.newInstance found machine = .ok object created)
      (binds : initializer.bind object created = .ok bound opened)
      (same : bound.declaration = initializer.declaration)
      (starts : bound.Starts arguments opened)
      (yields : ∀ steps line, invoke (steps + 1) (.cls found) arguments line machine =
        (do
          let _ ← invoke steps (.function bound) arguments line
          return Value.object object) opened) :
      Starts arguments machine (.cls found)
  | bare {found : Class} {object : Instance} {created : Machine}
      (undeclared : found.initializer? = none) (empty : arguments = [])
      (made : Run.newInstance found machine = .ok object created)
      (yields : ∀ steps line, invoke (steps + 1) (.cls found) arguments line machine =
        .ok (.object object) created) :
      Starts arguments machine (.cls found)

/-- What a call comes to. Where the callee or an argument fails nothing after it is
evaluated. The faults of the call itself arise on the machine that the arguments leave
behind, before anything is called. -/
inductive Called (steps : Nat) (callee : Expr) (paren : Token) (arguments : List Expr)
    (machine : Machine) : EStateM.Result Halt Machine Value → Prop where
  | callee {halt : Halt} {after : Machine}
      (failed : evaluate steps callee machine = .error halt after) :
      Called steps callee paren arguments machine (.error halt after)
  | argument {function : Value} {first middle after : Machine} {front back : List Expr}
      {failing : Expr} {values : List Value} {halt : Halt}
      (ran : evaluate steps callee machine = .ok function first)
      (shape : arguments = front ++ failing :: back)
      (inTurn : InTurn steps first front values middle)
      (failed : evaluate steps failing middle = .error halt after) :
      Called steps callee paren arguments machine (.error halt after)
  | notCallable {function : Value} {first last : Machine} {values : List Value}
      (ran : evaluate steps callee machine = .ok function first)
      (inTurn : InTurn steps first arguments values last)
      (missing : function.callable? = none) :
      Called steps callee paren arguments machine
        (.error (.fault (.typeAt paren .notCallable)) last)
  | argumentCount {function : Value} {callable : Callable} {first last : Machine}
      {values : List Value} (ran : evaluate steps callee machine = .ok function first)
      (inTurn : InTurn steps first arguments values last)
      (found : function.callable? = some callable)
      (differ : arguments.length ≠ callable.arity) :
      Called steps callee paren arguments machine
        (.error (.fault (.typeAt paren (.argumentCount callable.arity arguments.length))) last)
  | invoked {function : Value} {callable : Callable} {first last : Machine}
      {values : List Value} (ran : evaluate steps callee machine = .ok function first)
      (inTurn : InTurn steps first arguments values last)
      (found : function.callable? = some callable)
      (agree : arguments.length = callable.arity) (starts : callable.Starts values last) :
      Called steps callee paren arguments machine (invoke steps callable values paren.line last)

/-- A call behind its callee and its arguments. -/
theorem evaluate_call {callee : Expr} {paren : Token} {function : Value} {first last : Machine}
    (ran : evaluate steps callee before = .ok function first)
    (inTurn : InTurn steps first expressions values last) :
    evaluate (steps + 1) (.call callee paren expressions) before =
      match function.callable? with
      | none => .error (.fault (.typeAt paren .notCallable)) last
      | some callable =>
          if expressions.length = callable.arity then
            invoke steps callable values paren.line last
          else
            .error (.fault (.typeAt paren
              (.argumentCount callable.arity expressions.length))) last := by
  change (evaluate steps callee >>= _) before = _
  rw [Run.step_bind, ran]
  change (Run.collect (evaluate steps) expressions >>= _) first = _
  rw [Run.step_bind, Run.collect_of_inTurn inTurn, ← inTurn.length]
  dsimp only
  cases function.callable? with
  | none => rfl
  | some callable =>
      dsimp only
      split <;> rfl

/-- The scopes of an environment that fits are in the store. -/
theorem Environment.Fits.allocated {store : Store} {scopes : List (Bindings Readiness)}
    {loose : List (List String)} {environment : Environment}
    (fits : environment.Fits store scopes loose) (globals : 0 < store.scopes.size) :
    ∀ scope ∈ environment, scope.index < store.scopes.size := by
  induction fits with
  | globals =>
      rintro _ (_ | ⟨_, ⟨⟩⟩)
      exact globals
  | inside _ allocated _ _ _ ih =>
      intro scope inside
      rcases List.mem_cons.mp inside with rfl | outside
      · exact allocated
      · exact ih scope outside

/-- A class without an initializer takes no arguments. -/
theorem evaluate_call_bare {callee : Expr} {paren : Token} {found : Class}
    {first last : Machine} (ran : evaluate steps callee before = .ok (.cls found) first)
    (inTurn : InTurn steps first expressions values last)
    (undeclared : found.initializer? = none) :
    evaluate (steps + 1) (.call callee paren expressions) before =
      if expressions.length = 0 then invoke steps (.cls found) values paren.line last
      else .error (.fault (.typeAt paren (.argumentCount 0 expressions.length))) last := by
  have arity : (Callable.cls found).arity = 0 := by
    rw [Callable.arity, Class.arity, undeclared]
  rw [evaluate_call ran inTurn, Value.callable?]
  dsimp only
  rw [arity]

namespace Origins

/-! ## Calls with distinct parameters -/

/-- Functions whose parameters are distinct, and any globals. -/
def distinct : Origins :=
  .ofDeclarations (fun _ => True) FunctionDecl.HasDistinctParameters

variable {survey : Survey} {distances : Distances} {machine : Machine}
variable {arguments : List Value}

/-- What is accepted declares functions with distinct parameters only. -/
theorem covers_distinct
    (accepted : ∀ visit, survey.visited visit → visit.Accepted distances) :
    distinct.Covers (Moment.Sound survey distances) :=
  covers_sound accepted (fun visited => (accepted _ visited).distinct_function)
    fun visited => (accepted _ visited).distinct_methods

/-- A function with distinct parameters starts with all of its arguments. -/
theorem starts_closure {closure : Closure}
    (sound : Moment.Sound survey distances ⟨steps, .call (.function closure) arguments, machine⟩)
    (permits : distinct.PermitsMoment ⟨steps, .call (.function closure) arguments, machine⟩) :
    closure.Starts arguments machine := by
  obtain ⟨machineSound, -, ⟨_, _, _, _, fits⟩, -, enough⟩ := sound
  exact ⟨Environment.Fits.allocated fits machineSound.globals, closure.parameterBindings arguments,
    Closure.receives_parameterBindings permits.2.1 enough, fun steps line => rfl⟩

/-- What is called with as many arguments as it takes starts with all of them. -/
theorem starts_callable {callable : Callable}
    (covers : distinct.Covers (Moment.Sound survey distances))
    (sound : Moment.Sound survey distances ⟨steps, .call callable arguments, machine⟩)
    (permits : distinct.PermitsMoment ⟨steps, .call callable arguments, machine⟩) :
    callable.Starts arguments machine := by
  cases callable with
  | native host => exact .native fun _ _ => rfl
  | function closure => exact .function (starts_closure sound permits)
  | cls found =>
      obtain ⟨object, created, made⟩ : ∃ object created,
          Run.newInstance found machine = .ok object created := ⟨_, _, rfl⟩
      cases declared : found.initializer? with
      | none =>
          have enough : arguments.length = (Callable.cls found).arity := sound.2.2.2.2
          rw [Callable.arity, Class.arity, declared] at enough
          refine .bare declared (List.length_eq_zero_iff.mp enough) made fun steps line => ?_
          change (Run.newInstance found >>= _) machine = _
          rw [Run.step_bind, made]
          simp only [declared]
          rfl
      | some initializer =>
          obtain ⟨bound, opened, binds, same⟩ : ∃ bound opened,
              initializer.bind object created = .ok bound opened ∧
                bound.declaration = initializer.declaration := ⟨_, _, rfl, rfl⟩
          have enters : Moment.Enters ⟨steps + 1, .call (.cls found) arguments, machine⟩
              ⟨steps, .call (.function bound) arguments, opened⟩ :=
            .construct made declared binds
          -- The number of steps plays no part in what holds at a moment.
          have soundHere : Moment.Sound survey distances
              ⟨steps + 1, .call (.cls found) arguments, machine⟩ := sound
          have permitsHere : distinct.PermitsMoment
              ⟨steps + 1, .call (.cls found) arguments, machine⟩ := permits
          have starts := starts_closure (soundHere.enters enters)
            (permitsHere.enters covers (fun _ => trivial) soundHere enters)
          refine .initializer declared made binds same starts fun steps line => ?_
          change (Run.newInstance found >>= _) machine = _
          rw [Run.step_bind, made]
          simp only [declared]
          rw [Run.step_bind, binds]

/-- What a call comes to at a moment that permits functions with distinct parameters
only. -/
theorem called_of_sound {callee : Expr} {paren : Token} {expressions : List Expr}
    (covers : distinct.Covers (Moment.Sound survey distances))
    (sound : Moment.Sound survey distances
      ⟨steps + 1, .node (.expr (.call callee paren expressions)), machine⟩)
    (permits : distinct.PermitsMoment
      ⟨steps + 1, .node (.expr (.call callee paren expressions)), machine⟩) :
    Called steps callee paren expressions machine
      (evaluate (steps + 1) (.call callee paren expressions) machine) := by
  cases ran : evaluate steps callee machine with
  | error halt after =>
      have failed : evaluate (steps + 1) (.call callee paren expressions) machine =
          .error halt after := by
        change (evaluate steps callee >>= _) machine = _
        rw [Run.step_bind, ran]
      rw [failed]
      exact .callee ran
  | ok function first =>
      rcases inTurn_or_fails steps expressions first with ⟨values, last, inTurn⟩ |
        ⟨front, failing, back, values, middle, halt, after, shape, inTurn, failed, collected⟩
      · rw [evaluate_call ran inTurn]
        cases found : function.callable? with
        | none => exact .notCallable ran inTurn found
        | some callable =>
            dsimp only
            split
            · next agree =>
                have enters : Moment.Enters
                    ⟨steps + 1, .node (.expr (.call callee paren expressions)), machine⟩
                    ⟨steps, .call callable values, last⟩ :=
                  .call ran (Run.collect_of_inTurn inTurn) found (inTurn.length.trans agree)
                exact .invoked ran inTurn found agree (starts_callable covers (sound.enters enters)
                  (permits.enters covers (fun _ => trivial) sound enters))
            · next differ => exact .argumentCount ran inTurn found differ
      · have stopped : evaluate (steps + 1) (.call callee paren expressions) machine =
            .error halt after := by
          change (evaluate steps callee >>= _) machine = _
          rw [Run.step_bind, ran]
          change (Run.collect (evaluate steps) expressions >>= _) first = _
          rw [Run.step_bind, collected]
        rw [stopped]
        exact .argument ran shape inTurn failed

end Origins

namespace Session

variable (time : Native → Nat → Except String Float) (policy : SinkPolicy)

/-- Whatever a session has run, it has functions with distinct parameters only. -/
theorem permits_distinct (past : List (Nat × String)) :
    Origins.distinct.Permits ((Session.start (Host.ofTime time) policy).after past).machine :=
  permits_after time policy trivial past
    (fun _ => coversRun_of_accepts time policy Origins.covers_distinct) fun _ _ _ => trivial

/-- Wherever a call is evaluated in the run of an accepted program, the callee is evaluated
and then each argument once, from left to right. Then the call fails without anything being
called, or as many arguments are given as the callee takes. In that case the body of a
function, of a method or of an initializer starts in a new scope that has each parameter
with the argument at its place and nothing else. A class without an initializer takes no
arguments. -/
theorem arguments_reach_parameters (past : List (Nat × String)) (steps limit : Nat)
    (source : String) (callee : Expr) (paren : Token) (arguments : List Expr) (machine : Machine)
    (occurs : (Session.start (Host.ofTime time) policy).Occurs past steps source
      ⟨limit + 1, .node (.expr (.call callee paren arguments)), machine⟩) :
    Called limit callee paren arguments machine
      (Lox.evaluate (limit + 1) (.call callee paren arguments) machine) ∧
    ∀ found first values last, Lox.evaluate limit callee machine = .ok (.cls found) first →
      InTurn limit first arguments values last → found.initializer? = none →
      Lox.evaluate (limit + 1) (.call callee paren arguments) machine =
        if arguments.length = 0 then invoke limit (.cls found) values paren.line last
        else .error (.fault (.typeAt paren (.argumentCount 0 arguments.length))) last := by
  have permits := Occurs.permits
    (fun _ => coversRun_of_accepts time policy Origins.covers_distinct)
    (fun _ => trivial) (permits_distinct time policy past) occurs
  obtain ⟨sound, accepted⟩ := occurs.sound rfl (sound_start _ time policy)
  constructor
  · exact Origins.called_of_sound (Origins.covers_distinct accepted) sound permits
  · exact fun _ _ _ _ ran inTurn undeclared => evaluate_call_bare ran inTurn undeclared

/-! ### An inherited initializer -/

theorem reads_inherited :
    (match (readProgram "class A { init(x, y) {} } class B < A {} B(nil, true);" 0).1 with
    | .ok [base, derived, .expression (.call callee paren [one, other])] =>
        let program := [base, derived, .expression (.call callee paren [one, other])]
        (bindProgram program .empty).1.isEmpty &&
          match execute 9 base (silent.bound program) with
          | .ok _ first =>
              match execute 9 derived first with
              | .ok _ second =>
                  match Lox.evaluate 8 (.call callee paren [one, other]) second with
                  | .ok (.object _) _ => true
                  | _ => false
              | _ => false
          | _ => false
    | _ => false) = true := by
  decide +kernel

/-- A class is called whose initializer is inherited. -/
theorem occurs_inherited : ∃ callee paren arguments machine object after,
    silent.Occurs [] 9 "class A { init(x, y) {} } class B < A {} B(nil, true);"
      ⟨8, .node (.expr (.call callee paren arguments)), machine⟩ ∧
    arguments.length = 2 ∧
    Lox.evaluate 8 (.call callee paren arguments) machine = .ok (.object object) after := by
  have checked := reads_inherited
  split at checked
  case h_2 => cases checked
  next base derived callee paren one other read =>
    rw [Bool.and_eq_true, List.isEmpty_iff] at checked
    obtain ⟨clean, checked⟩ := checked
    split at checked
    case h_2 => cases checked
    next ran =>
      split at checked
      case h_2 => cases checked
      next followed =>
        split at checked
        case h_2 => cases checked
        next object after called =>
          refine ⟨callee, paren, [one, other], _, object, after, ⟨_, ⟨read, clean⟩, _, _,
            .later ran (.later followed .here), .single .effect⟩, rfl, called⟩

/-- Both arguments reach the parameters of the inherited initializer. -/
theorem arguments_reach_parameters_inherited : ∃ callee paren arguments machine object after,
    silent.Occurs [] 9 "class A { init(x, y) {} } class B < A {} B(nil, true);"
      ⟨8, .node (.expr (.call callee paren arguments)), machine⟩ ∧
    arguments.length = 2 ∧
    Lox.evaluate 8 (.call callee paren arguments) machine = .ok (.object object) after ∧
    Called 7 callee paren arguments machine (.ok (.object object) after) := by
  obtain ⟨callee, paren, arguments, machine, object, after, occurs, two, ran⟩ := occurs_inherited
  obtain ⟨called, -⟩ :=
    arguments_reach_parameters _ _ [] 9 7 _ callee paren arguments machine occurs
  exact ⟨callee, paren, arguments, machine, object, after, occurs, two, ran, ran ▸ called⟩

end Session

end Lox
