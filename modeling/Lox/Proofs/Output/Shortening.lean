import Lox.Proofs.Output.Refusal

/-!
# Runs cut short

What is said of single steps under two sinks is said here of everything that evaluation
does, and then of whole programs. A sink that refuses can only cut a run short, and only
at a `print`: nothing that is run afterwards has any effect.
-/

namespace Lox

open Run

variable {policy : SinkPolicy} {machine : Machine} {α : Type}

/-! ## Evaluation -/

theorem Run.Cuts.enter {step : Run α} {moment inner : Moment}
    (cuts : Cuts policy machine (inner.Leads policy) step) (enters : moment.Enters inner) :
    Cuts policy machine (moment.Leads policy) step :=
  cuts.widen fun _ _ leads => leads.enter enters

/-- What takes no more than a number of steps is broken off only at a moment that it
comes to. -/
structure CutsWithin (policy : SinkPolicy) (steps : Nat) : Prop where
  evaluate : ∀ value machine,
    Cuts policy machine (Moment.Leads policy ⟨steps, .node (.expr value), machine⟩)
      (evaluate steps value)
  execute : ∀ statement machine,
    Cuts policy machine (Moment.Leads policy ⟨steps, .node (.stmt statement), machine⟩)
      (execute steps statement)
  invoke : ∀ callable arguments line machine,
    Cuts policy machine (Moment.Leads policy ⟨steps, .call callable arguments, machine⟩)
      (invoke steps callable arguments line)

section Step

variable {steps : Nat}

theorem cuts_evaluate (below : CutsWithin policy steps) (value : Expr) (machine : Machine) :
    Cuts policy machine (Moment.Leads policy ⟨steps + 1, .node (.expr value), machine⟩)
      (evaluate (steps + 1) value) := by
  cases value with
  | literal => exact cuts_pure _
  | grouping inner => exact (below.evaluate inner machine).enter .grouping
  | unary operator operand =>
      apply ((below.evaluate operand machine).enter .operand).bind
      intro _ _ _
      exact cuts_ofOperator _ _
  | binary left operator right =>
      apply ((below.evaluate left machine).enter .left).bind
      intro one first ran
      apply ((below.evaluate right first).enter (.right ran)).bind
      intro _ _ _
      exact cuts_ofOperator _ _
  | logical left operator right =>
      apply ((below.evaluate left machine).enter .logicalLeft).bind
      intro one first ran
      by_cases decided : one.decides operator.kind
      · simp only [decided, if_true]
        exact cuts_pure one
      · simp only [decided]
        exact (below.evaluate right first).enter (.logicalRight ran (by simpa using decided))
  | «variable» reference => exact cuts_read reference
  | assign reference value =>
      apply ((below.evaluate value machine).enter .assigned).bind
      intro _ _ _
      exact (cuts_write _ _).bind fun _ _ _ => cuts_pure _
  | call callee paren arguments =>
      apply ((below.evaluate callee machine).enter .callee).bind
      intro function first ran
      have collected : Cuts policy first
          (Moment.Leads policy ⟨steps + 1, .node (.expr (.call callee paren arguments)), machine⟩)
          (collect (evaluate steps) arguments) := by
        apply cuts_collect
        intro front argument back results second shape collected
        subst shape
        exact (below.evaluate argument second).enter (.argument ran collected)
      apply collected.bind
      intro values second collected
      cases found : function.callable? with
      | none => exact cuts_fail rfl
      | some callable =>
          by_cases enough : values.length = callable.arity
          · simp only [enough, if_true]
            exact (below.invoke callable values paren.line second).enter
              (.call ran collected found enough)
          · simp only [enough]
            exact cuts_fail rfl
  | get object name =>
      apply ((below.evaluate object machine).enter .object).bind
      intro found _ _
      cases found with
      | object found => exact cuts_property _ _
      | _ => exact cuts_fail rfl
  | set object name value =>
      apply ((below.evaluate object machine).enter .changed).bind
      intro found first ran
      cases found with
      | object found =>
          apply ((below.evaluate value first).enter (.stored ran)).bind
          intro _ _ _
          exact (cuts_modifyStore _).bind fun _ _ _ => cuts_pure _
      | _ => exact cuts_fail rfl
  | this reference => exact cuts_read reference
  | super reference method => exact cuts_superMethod reference method

/-- A `print` is broken off in its expression, or where its own text is refused. -/
theorem cuts_printed (below : CutsWithin policy steps) (value : Expr) (machine : Machine) :
    Cuts policy machine (Moment.Leads policy ⟨steps + 1, .node (.stmt (.print value)), machine⟩)
      (execute (steps + 1) (.print value)) := by
  apply ((below.evaluate value machine).enter .printed).bind
  intro result shown ran
  refine Cuts.bind ?_ fun _ _ _ => cuts_pure _
  apply (cuts_print result).widen
  rintro reason left ⟨taken, refused, rest, refusal, pieces, nonempty, refuses, rfl, rfl⟩
  exact ⟨_, .refl, .print ran pieces nonempty refuses⟩

theorem cuts_while (below : CutsWithin policy steps) (condition : Expr) (body : Stmt)
    (machine : Machine) :
    Cuts policy machine
      (Moment.Leads policy ⟨steps + 1, .node (.stmt (.whileLoop condition body)), machine⟩)
      (execute (steps + 1) (.whileLoop condition body)) := by
  apply ((below.evaluate condition machine).enter .whileCondition).bind
  intro value first ran
  by_cases holds : value.isTruthy
  · simp only [holds, if_true]
    apply ((below.execute body first).enter (.whileBody ran holds)).bind
    intro flow second round
    cases flow with
    | returned value => exact cuts_pure _
    | normal => exact (below.execute _ second).enter (.whileAgain ran holds round)
  · simp only [holds]
    exact cuts_pure _

theorem cuts_for (below : CutsWithin policy steps) (condition increment : Option Expr)
    (body : Stmt) (machine : Machine) :
    Cuts policy machine
      (Moment.Leads policy
        ⟨steps + 1, .node (.stmt (.forLoop none condition increment body)), machine⟩)
      (execute (steps + 1) (.forLoop none condition increment body)) := by
  have checked : Cuts policy machine
      (Moment.Leads policy
        ⟨steps + 1, .node (.stmt (.forLoop none condition increment body)), machine⟩)
      (goesOn (evaluate steps) condition) := by
    apply cuts_goesOn
    intro value same
    subst same
    exact (below.evaluate value machine).enter .forCondition
  apply checked.bind
  intro goesOn first holds
  cases goesOn with
  | false => exact cuts_pure _
  | true =>
      apply ((below.execute body first).enter (.forBody holds)).bind
      intro flow second round
      cases flow with
      | returned value => exact cuts_pure _
      | normal =>
          cases increment with
          | none => exact (below.execute _ second).enter (.forAgain holds round)
          | some step =>
              apply ((below.evaluate step second).enter (.forIncrement holds round)).bind
              intro value third ran
              exact (below.execute _ third).enter (.forNext holds round ran)

theorem cuts_execute (below : CutsWithin policy steps) (statement : Stmt) (machine : Machine) :
    Cuts policy machine (Moment.Leads policy ⟨steps + 1, .node (.stmt statement), machine⟩)
      (execute (steps + 1) statement) := by
  cases statement with
  | expression value =>
      exact ((below.evaluate value machine).enter .effect).bind fun _ _ _ => cuts_pure _
  | print value => exact cuts_printed below value machine
  | var name initializer =>
      cases initializer with
      | none => exact (cuts_define _ _).bind fun _ _ _ => cuts_pure _
      | some value =>
          apply ((below.evaluate value machine).enter .initializer).bind
          intro _ _ _
          exact (cuts_define _ _).bind fun _ _ _ => cuts_pure _
  | block body =>
      apply cuts_get rfl
      apply (cuts_newScope _ _).bind
      intro inner first entered
      have inside : Cuts policy { first with environment := inner }
          (Moment.Leads policy ⟨steps + 1, .node (.stmt (.block body)), machine⟩)
          (Flow.sequence (execute steps) body) := by
        apply cuts_sequence
        intro front statement back second shape ran
        subst shape
        exact (below.execute statement second).enter (.member entered ran)
      exact inside.within fun _ _ leads => leads.elsewhere _
  | conditional condition consequent alternative =>
      apply ((below.evaluate condition machine).enter .condition).bind
      intro value first ran
      by_cases holds : value.isTruthy
      · simp only [holds, if_true]
        exact (below.execute consequent first).enter (.consequent ran holds)
      · simp only [holds]
        cases alternative with
        | none => exact cuts_pure _
        | some alternative =>
            exact (below.execute alternative first).enter (.alternative ran (by simpa using holds))
  | whileLoop condition body => exact cuts_while below condition body machine
  | forLoop initializer condition increment body =>
      cases initializer with
      | none => exact cuts_for below condition increment body machine
      | some initializer =>
          apply ((below.execute initializer machine).enter .forInitializer).bind
          intro flow first ran
          exact (below.execute _ first).enter (.forRest ran)
  | function declaration =>
      apply (cuts_declare _ _).bind
      intro _ _ _
      exact (cuts_define _ _).bind fun _ _ _ => cuts_pure _
  | returning keyword value =>
      cases value with
      | none => exact cuts_pure _
      | some value =>
          exact ((below.evaluate value machine).enter .returned).bind fun _ _ _ => cuts_pure _
  | classDecl name superclass methods =>
      cases superclass with
      | none => exact (cuts_declareClass _ _ _).bind fun _ _ _ => cuts_pure _
      | some superclass =>
          apply ((below.evaluate superclass machine).enter .superclass).bind
          intro _ _ _
          apply (cuts_superclassOf _ _ _).bind
          intro _ _ _
          exact (cuts_declareClass _ _ _).bind fun _ _ _ => cuts_pure _

theorem cuts_invoke (below : CutsWithin policy steps) (callable : Callable)
    (arguments : List Value) (line : Nat) (machine : Machine) :
    Cuts policy machine (Moment.Leads policy ⟨steps + 1, .call callable arguments, machine⟩)
      (invoke (steps + 1) callable arguments line) := by
  cases callable with
  | native function => exact cuts_callHost _ _ _
  | function closure =>
      apply (cuts_newScope _ _).bind
      intro inner first entered
      have inside : Cuts policy { first with environment := inner }
          (Moment.Leads policy ⟨steps + 1, .call (.function closure) arguments, machine⟩)
          (Flow.sequence (execute steps) closure.declaration.body) := by
        apply cuts_sequence
        intro front statement back second shape ran
        exact (below.execute statement second).enter (.body entered shape ran)
      apply (inside.within fun _ _ leads => leads.elsewhere _).bind
      intro _ _ _
      exact cuts_result _ _
  | cls found =>
      apply (cuts_newInstance found).bind
      intro object first created
      cases initializes : found.initializer? with
      | none => exact cuts_pure _
      | some method =>
          apply (cuts_bindMethod method object).bind
          intro bound second ran
          apply ((below.invoke (.function bound) arguments line second).enter
            (.construct created initializes ran)).bind
          intro _ _ _
          exact cuts_pure _

end Step

/-- Everything is broken off only at a moment that it comes to. -/
theorem cutsWithin (policy : SinkPolicy) (steps : Nat) : CutsWithin policy steps := by
  induction steps with
  | zero =>
      exact ⟨fun _ _ => cuts_throw fun _ => nofun, fun _ _ => cuts_throw fun _ => nofun,
        fun _ _ _ _ => cuts_throw fun _ => nofun⟩
  | succ steps ih => exact ⟨cuts_evaluate ih, cuts_execute ih, cuts_invoke ih⟩

/-! ## Programs -/

/-- Run the statements of a program, without passing the output on. -/
def executeAll (steps : Nat) : List Stmt → Run Unit
  | [] => return ()
  | first :: rest => do
      let _ ← execute steps first
      executeAll steps rest

/-- A program passes its output on when all its statements have run. -/
theorem interpret_eq (steps : Nat) (program : List Stmt) (machine : Machine) :
    interpret steps program machine = (executeAll steps program >>= fun _ => flush) machine := by
  induction program generalizing machine with
  | nil => rfl
  | cons first rest ih =>
      simp only [interpret, executeAll, step_bind]
      cases execute steps first machine with
      | error halt after => rfl
      | ok flow after =>
          have later := ih after
          rw [step_bind] at later
          exact later

theorem cuts_executeAll (policy : SinkPolicy) (steps : Nat) (program : List Stmt)
    (machine : Machine) :
    Cuts policy machine
      (fun reason left => ∃ moment, Moment.Occurs steps program machine moment ∧
        moment.Breaks policy reason left)
      (executeAll steps program) := by
  induction program generalizing machine with
  | nil => exact cuts_pure ()
  | cons first rest ih =>
      refine Cuts.bind (((cutsWithin policy steps).execute first machine).widen ?_) ?_
      · intro reason left leads
        obtain ⟨moment, path, breaks⟩ := leads
        exact ⟨moment, ⟨first, machine, .here, path⟩, breaks⟩
      · intro flow middle ran
        apply (ih middle).widen
        intro reason left later
        obtain ⟨moment, ⟨statement, reached, comes, path⟩, breaks⟩ := later
        exact ⟨moment, ⟨statement, reached, .later ran comes, path⟩, breaks⟩

/-- How a program ends under a policy, next to how it ends when nothing is refused. What
it then writes is offered to a sink. -/
inductive Shortened (policy : SinkPolicy) (steps : Nat) (program : List Stmt) (machine : Machine)
    (offered : Option String × Sink) :
    EStateM.Result Halt Machine Unit → EStateM.Result Halt Machine Unit → Prop where
  /-- Nothing is refused. -/
  | finished {after : Machine} (taken : offered.1 = none)
      (passed : policy.refusesFlush after.sink.accepted = none) :
      Shortened policy steps program machine offered
        (.ok () (after.withPolicy policy)) (.ok () after)
  /-- Nothing is refused, and the program fails for a reason of its own. -/
  | halted {halt : Halt} {after : Machine} (taken : offered.1 = none)
      (silent : ∀ reason, halt ≠ .fault (.output reason)) :
      Shortened policy steps program machine offered
        (.error halt (after.withPolicy policy)) (.error halt after)
  /-- A piece is refused at a `print` that the program comes to, and nothing more is done. -/
  | refused {result : EStateM.Result Halt Machine Unit} {reason : String} {moment : Moment}
      {left : Machine} (refused : offered = (some reason, left.sink))
      (occurs : moment.Occurs steps program machine) (breaks : moment.Breaks policy reason left)
      (back : left.environment = machine.environment) :
      Shortened policy steps program machine offered
        (.error (.fault (.output reason)) left) result
  /-- Every statement has run, and then the flush is refused. -/
  | unflushed {reason : String} {after : Machine} (taken : offered.1 = none)
      (refuses : policy.refusesFlush after.sink.accepted = some reason) :
      Shortened policy steps program machine offered
        (.error (.fault (.output reason)) (after.withPolicy policy)) (.ok () after)

/-- The flush behind all statements is refused or not, and changes nothing. -/
theorem flush_eq (machine : Machine) :
    flush machine =
      match machine.sink.policy.refusesFlush machine.sink.accepted with
      | none => .ok () machine
      | some reason => .error (.fault (.output reason)) machine := by
  simp only [flush, step_bind]
  dsimp only [get, getThe, MonadStateOf.get, EStateM.get, Sink.flush]
  cases machine.sink.policy.refusesFlush machine.sink.accepted <;> rfl

theorem Shortened.of_cut {steps : Nat} {program : List Stmt} {offered : Option String × Sink}
    {after : Machine} (unhindered : after.sink.policy = .unlimited)
    (heard : Heard (executeAll steps program machine) after)
    (cut : Cut policy
      (fun reason left => ∃ moment, Moment.Occurs steps program machine moment ∧
        moment.Breaks policy reason left)
      offered after (executeAll steps program (machine.withPolicy policy))
      (executeAll steps program machine)) :
    Shortened policy steps program machine offered
      (interpret steps program (machine.withPolicy policy)) (interpret steps program machine) := by
  have back := restores_interpret steps program (machine.withPolicy policy)
  simp only [behind, interpret_eq, step_bind] at back ⊢
  generalize executeAll steps program machine = free at heard cut
  generalize executeAll steps program (machine.withPolicy policy) = limited at cut back
  cases cut with
  | error taken =>
      cases heard with
      | error silent => exact .halted taken silent
  | short refused broken =>
      obtain ⟨moment, occurs, breaks⟩ := broken
      exact .refused refused occurs breaks back.environment
  | ok taken =>
      have passed : flush after = .ok () after := by
        simp only [flush_eq, unhindered, SinkPolicy.unlimited]
      simp only [passed, flush_eq, Machine.withPolicy]
      cases refuses : policy.refusesFlush after.sink.accepted with
      | none => exact .finished taken refuses
      | some reason => exact .unflushed taken refuses

/-- What a sink has accepted when a run under it ends. -/
theorem Shortened.accepted {steps : Nat} {program : List Stmt} {pieces : List String}
    (shortened : Shortened policy steps program machine
      ((machine.withPolicy policy).sink.writeAll pieces)
      (interpret steps program (machine.withPolicy policy)) (interpret steps program machine))
    (wrote : machine.Wrote pieces (behind (interpret steps program) machine)) :
    (behind (interpret steps program) (machine.withPolicy policy)).sink.accepted =
      ((machine.withPolicy policy).sink.writeAll pieces).2.accepted := by
  -- Where nothing is refused both sinks have taken the same.
  have all (taken : ((machine.withPolicy policy).sink.writeAll pieces).1 = none) :
      ((machine.withPolicy policy).sink.writeAll pieces).2.accepted =
        machine.sink.accepted ++ String.join pieces :=
    congrArg (·.2.accepted) (Sink.writeAll_eq_of_none taken)
  simp only [behind, Machine.Wrote] at wrote ⊢
  generalize interpret steps program machine = free at shortened wrote
  generalize interpret steps program (machine.withPolicy policy) = limited at shortened
  cases shortened with
  | refused refused occurs breaks back => rw [refused]
  | finished taken | halted taken | unflushed taken =>
      rw [all taken]
      exact congrArg Sink.accepted wrote

/-- A sink that refuses can only cut a run short. What it accepts is the beginning of what
is written when nothing is refused, and it is offered the very same pieces up to the first
that it refuses. Without a refusal the run ends in the same way on the same machine. The
refusal of a piece ends it at the `print` of that piece, with what the other run has on
coming there, and a refused flush comes when all statements have run. -/
theorem refusal_only_shortens (policy : SinkPolicy) (steps : Nat) (program : List Stmt)
    (machine : Machine) :
    let run := interpret steps program
    let unhindered := machine.withPolicy .unlimited
    let hindered := machine.withPolicy policy
    ∃ pieces,
      (run.behind unhindered).sink.accepted = machine.sink.accepted ++ String.join pieces ∧
      (run.behind hindered).sink.accepted = (hindered.sink.writeAll pieces).2.accepted ∧
      (∃ missing, (run.behind unhindered).sink.accepted =
        (run.behind hindered).sink.accepted ++ missing) ∧
      (∀ reason after, run unhindered ≠ .error (.fault (.output reason)) after) ∧
      Shortened policy steps program unhindered (hindered.sink.writeAll pieces)
        (run hindered) (run unhindered) := by
  intro run unhindered hindered
  -- Both sinks are given the same pieces, up to the first one that is refused.
  obtain ⟨pieces, after, wrote, heard, cut⟩ :=
    cuts_executeAll policy steps program unhindered rfl
  have policy_after : after.sink.policy = .unlimited := by rw [wrote]
  have shortened := Shortened.of_cut policy_after heard cut
  have passed : flush after = .ok () after := by
    simp only [flush_eq, policy_after, SinkPolicy.unlimited]
  have ends : Heard (run unhindered) after := by
    simp only [run, interpret_eq, step_bind]
    generalize executeAll steps program unhindered = free at heard
    cases heard with
    | ok => simpa only [passed] using .ok
    | error silent => exact .error silent
  have behind_after : run.behind unhindered = after := by
    simp only [behind]
    generalize run unhindered = free at ends
    cases ends <;> rfl
  have accepted : (run.behind hindered).sink.accepted =
      (hindered.sink.writeAll pieces).2.accepted :=
    shortened.accepted (by rw [behind_after]; exact wrote)
  have written : (run.behind unhindered).sink.accepted =
      machine.sink.accepted ++ String.join pieces := by
    rw [behind_after, wrote]
    rfl
  refine ⟨pieces, written, accepted, ?_, ?_, shortened⟩
  · rw [accepted, written]
    exact Sink.prefix_writeAll policy machine.sink.accepted pieces
  · intro reason left same
    rw [same] at ends
    cases ends with
    | error silent => exact silent reason rfl

/-- Two and a half and then `nil` are printed into a sink with room for a number of characters.
The room may end between two parts of the text of the number, or within `nil`. -/
example :
    let program : List Stmt :=
      [.print (.literal (.number (.ofBits 0x4004000000000000))), .print (.literal .nil)]
    let holding (room : Nat) : SinkPolicy :=
      { SinkPolicy.unlimited with
        refusesWrite := fun accepted piece =>
          if room < accepted.length + piece.length then
            some ⟨"no room", room - accepted.length⟩
          else none }
    let machine (room : Nat) := Machine.start (fun _ _ _ => .error "no host") (holding room)
    [0, 1, 2, 3, 4, 5].map
        (fun room => ((interpret 2 program).behind (machine room)).sink.accepted) =
      ["", "2", "2.", "2.5", "2.5\n", "2.5\nn"] := by
  decide +kernel

end Lox
