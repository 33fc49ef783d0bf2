import Lox.Proofs.Returning.Outside
import Lox.Proofs.Returning.Recording

/-!
# A return is the last thing that happens

Once a `return` is recorded, the activation comes to no other statement, condition
or increment. This holds of every statement of the activation, and goes by induction
on the steps: what follows one that is left is not executed, wherever it stands.
-/

namespace Lox

/-! ## Records -/

/-- No `return` is recorded. -/
def Event.Silent (record : List Event) : Prop :=
  ∀ value, .returned value ∉ record

/-- The record of something that ends in some way. Where that is a `return`, it is the
one that is recorded last, and it is the first one, too. -/
def Flow.Unwinds : Flow → List Event → Prop
  | .normal, record => Event.Silent record
  | .returned value, record => ∃ front, record = front ++ [.returned value] ∧ Event.Silent front

theorem Event.silent_nil : Event.Silent [] := by
  simp [Event.Silent]

theorem Event.Silent.append {front back : List Event} (one : Event.Silent front)
    (other : Event.Silent back) : Event.Silent (front ++ back) := by
  intro value inside
  cases List.mem_append.mp inside with
  | inl before => exact one value before
  | inr behind => exact other value behind

/-- More in front that is no `return`. -/
theorem Event.Silent.unwinds {front record : List Event} {flow : Flow} (silent : Event.Silent front)
    (unwinds : flow.Unwinds record) : flow.Unwinds (front ++ record) := by
  cases flow with
  | normal => exact silent.append unwinds
  | returned value =>
      obtain ⟨middle, rfl, quiet⟩ := unwinds
      exact ⟨front ++ middle, (List.append_assoc ..).symm, silent.append quiet⟩

namespace Recording

variable {α β : Type}

/-- What a recorded step adds to the record if it succeeds. -/
def Adds (step : Recording α) (tells : α → List Event → Prop) : Prop :=
  ∀ events before value record after, step events before = .ok (value, record) after →
    ∃ own, record = events ++ own ∧ tells value own

/-! ## Steps put together -/

theorem adds_pure {value : α} {tells : α → List Event → Prop} (holds : tells value []) :
    Adds (pure value) tells := by
  intro events before result record after ran
  cases ran
  exact ⟨[], (List.append_nil _).symm, holds⟩

theorem adds_throw (halt : Halt) (tells : α → List Event → Prop) : Adds (throw halt) tells := by
  intro events before value record after ran
  cases ran

theorem adds_note {event : Event} {tells : Unit → List Event → Prop} (holds : tells () [event]) :
    Adds (note event) tells := by
  intro events before value record after ran
  cases ran
  exact ⟨[event], rfl, holds⟩

theorem adds_lift {step : Run α} {tells : α → List Event → Prop}
    (holds : ∀ before value after, step before = .ok value after → tells value []) :
    Adds (liftM step) tells := by
  intro events before value record after ran
  obtain ⟨found, middle, ranStep, rest⟩ := Run.bind_ok.mp ran
  cases rest
  exact ⟨[], (List.append_nil _).symm, holds before value after ranStep⟩

theorem Adds.bind {step : Recording α} {next : α → Recording β} {first : α → List Event → Prop}
    {tells : β → List Event → Prop} (front : Adds step first)
    (back : ∀ value own, first value own →
      Adds (next value) fun result more => tells result (own ++ more)) :
    Adds (step >>= next) tells := by
  intro events before value record after ran
  obtain ⟨⟨found, between⟩, middle, ranFirst, rest⟩ := Run.bind_ok.mp ran
  obtain ⟨own, rfl, holds⟩ := front events before found between middle ranFirst
  obtain ⟨more, rfl, last⟩ := back found own holds _ middle value record after rest
  exact ⟨own ++ more, List.append_assoc .., last⟩

theorem Adds.imp {step : Recording α} {tells weaker : α → List Event → Prop}
    (adds : Adds step tells)
    (weaken : ∀ value own, tells value own → weaker value own) : Adds step weaker := by
  intro events before value record after ran
  obtain ⟨own, shape, holds⟩ := adds events before value record after ran
  exact ⟨own, shape, weaken value own holds⟩

theorem adds_within (environment : Environment) {step : Recording α}
    {tells : α → List Event → Prop} (inside : Adds step tells) :
    Adds (within environment step) tells := by
  intro events before value record after ran
  unfold within Run.within at ran
  cases result : step events { before with environment := environment } with
  | ok entry middle =>
      rw [result] at ran
      cases ran
      exact inside events _ value record middle result
  | error halt middle =>
      rw [result] at ran
      cases ran

/-- Something that leaves no `return` in the record, and then a statement. -/
theorem Adds.then_unwinds {step : Recording α} {next : α → Recording Flow}
    (front : Adds step fun _ own => Event.Silent own)
    (back : ∀ value, Adds (next value) Flow.Unwinds) : Adds (step >>= next) Flow.Unwinds := by
  apply front.bind
  intro value own silent
  exact (back value).imp fun flow more => silent.unwinds

/-- A statement and, unless it returns, what follows it. -/
theorem Adds.unwinds_then {step : Recording Flow} {next : Flow → Recording Flow}
    (front : Adds step Flow.Unwinds)
    (leaves : ∀ value, next (.returned value) = pure (.returned value))
    (back : Adds (next .normal) Flow.Unwinds) : Adds (step >>= next) Flow.Unwinds := by
  apply front.bind
  intro flow own unwinds
  cases flow with
  | normal => exact back.imp fun flow more => Event.Silent.unwinds unwinds
  | returned value =>
      rw [leaves]
      refine adds_pure (?_ : Flow.Unwinds (.returned value) (own ++ []))
      rwa [List.append_nil]

theorem unwinds_sequence {execute : Stmt → Recording Flow} {body : List Stmt}
    (each : ∀ statement ∈ body, Adds (execute statement) Flow.Unwinds) :
    Adds (sequence execute body) Flow.Unwinds := by
  induction body with
  | nil => exact adds_pure Event.silent_nil
  | cons first rest ih =>
      have others := ih fun statement inside => each statement (.tail _ inside)
      exact (each first (.head _)).unwinds_then (fun _ => rfl) others

/-! ## Parts of statements -/

theorem silent_note (event : Event) (quiet : ∀ value, event ≠ .returned value) :
    Adds (note event) fun _ own => Event.Silent own := by
  apply adds_note
  intro value inside
  exact quiet value (List.mem_singleton.mp inside).symm

theorem silent_lift (step : Run α) : Adds (liftM step) fun _ own => Event.Silent own :=
  adds_lift fun _ _ _ _ => Event.silent_nil

theorem Adds.silent_bind {step : Recording α} {next : α → Recording β}
    (front : Adds step fun _ own => Event.Silent own)
    (back : ∀ value, Adds (next value) fun _ own => Event.Silent own) :
    Adds (step >>= next) fun _ own => Event.Silent own := by
  apply front.bind
  intro value own silent
  exact (back value).imp fun result more => silent.append

theorem silent_check (steps : Nat) (condition : Expr) :
    Adds (check steps condition) fun _ own => Event.Silent own :=
  (silent_note _ (by simp)).silent_bind fun _ => (silent_lift _).silent_bind fun _ =>
    adds_pure Event.silent_nil

theorem silent_goesOn (steps : Nat) (condition : Option Expr) :
    Adds (goesOn steps condition) fun _ own => Event.Silent own := by
  cases condition with
  | none => exact adds_pure Event.silent_nil
  | some condition => exact silent_check steps condition

/-- A value that is returned. -/
theorem unwinds_returned (value : Value) :
    Adds (do note (.returned value); return .returned value) Flow.Unwinds := by
  have noted : Adds (note (.returned value)) fun _ own => own = [.returned value] :=
    adds_note rfl
  apply noted.bind
  rintro _ _ rfl
  exact adds_pure ⟨[], rfl, Event.silent_nil⟩

/-! ## Statements -/

theorem unwinds_simple {statement : Stmt} (simple : statement.isSimple = true) (steps : Nat) :
    Adds (liftM (Lox.execute steps statement)) Flow.Unwinds := by
  apply adds_lift
  intro before flow after ran
  cases neverReturns_simple simple steps before flow after ran
  exact Event.silent_nil

/-- The first clause of a loop records no `return`. -/
theorem silent_clause {clause : Stmt} (placed : Stmt.ClausePlaced (some clause)) (steps : Nat) :
    Adds (execute steps clause) fun _ own => Event.Silent own := by
  cases steps with
  | zero => exact adds_throw _ _
  | succ steps =>
      have noted := silent_note (.statement clause) (by simp)
      rcases placed.1 with ⟨name, initializer, rfl⟩ | ⟨value, rfl⟩
      · exact noted.silent_bind fun _ => silent_lift _
      · exact noted.silent_bind fun _ => silent_lift _

/-- What a statement records ends with its first `return`, if it comes to one. -/
theorem unwinds_execute (steps : Nat) {statement : Stmt} (placed : statement.Placed) :
    Adds (execute steps statement) Flow.Unwinds := by
  induction steps generalizing statement with
  | zero => exact adds_throw _ _
  | succ steps ih =>
      apply (silent_note (.statement statement) (by simp)).then_unwinds
      intro _
      cases statement with
      | block body =>
          have each := unwinds_sequence fun statement inside =>
            ih (Stmt.listPlaced_iff.mp placed statement inside)
          exact (silent_lift _).then_unwinds fun _ => (silent_lift _).then_unwinds fun inner =>
            adds_within inner each
      | conditional condition consequent alternative =>
          apply (silent_check steps condition).then_unwinds
          intro holds
          cases holds with
          | true => exact ih placed.2.1.2
          | false =>
              cases alternative with
              | none => exact adds_pure Event.silent_nil
              | some statement => exact ih placed.2.2.2
      | whileLoop condition body =>
          apply (silent_check steps condition).then_unwinds
          intro holds
          cases holds with
          | true => exact (ih placed.2.2).unwinds_then (fun _ => rfl) (ih placed)
          | false => exact adds_pure Event.silent_nil
      | forLoop initializer condition increment body =>
          cases initializer with
          | some initializer =>
              have rest : (Stmt.forLoop none condition increment body).Placed :=
                ⟨trivial, placed.2⟩
              exact (silent_clause placed.1 steps).then_unwinds fun _ => ih rest
          | none =>
              apply (silent_goesOn steps condition).then_unwinds
              intro holds
              cases holds with
              | true =>
                  refine Adds.unwinds_then (ih placed.2.2.2.2) ?_ ?_
                  · exact fun _ => rfl
                  · cases increment with
                    | none => exact ih placed
                    | some step =>
                        exact (silent_note _ (by simp)).then_unwinds fun _ =>
                          (silent_lift _).then_unwinds fun _ => ih placed
              | false => exact adds_pure Event.silent_nil
      | returning keyword value =>
          cases value with
          | none => exact unwinds_returned .nil
          | some value => exact (silent_lift _).then_unwinds unwinds_returned
      | expression value => exact unwinds_simple rfl _
      | print value => exact unwinds_simple rfl _
      | var name initializer => exact unwinds_simple rfl _
      | function declaration => exact unwinds_simple rfl _
      | classDecl name superclass methods => exact unwinds_simple rfl _

end Recording

/-! ## Calls -/

/-- What a call yields whose body ends in some way, unless it is that of an
initializer. -/
def Flow.value : Flow → Value
  | .normal => .nil
  | .returned value => value

theorem Closure.result_of_plain {closure : Closure} (plain : closure.isInitializer = false)
    (flow : Flow) : closure.result flow = pure flow.value := by
  unfold Closure.result
  rw [plain]
  cases flow <;> rfl

/-- A call that ends records no `return` but one, if any, and that last. Unless the
function is an initializer, the value of it is the result. -/
theorem Recording.unwinds_call {closure : Closure} (steps : Nat) (arguments : List Value)
    (placed : Stmt.ListPlaced closure.declaration.body) :
    Adds (call steps closure arguments) fun result own => ∃ flow : Flow, flow.Unwinds own ∧
      (closure.isInitializer = false → result = flow.value) := by
  have body := unwinds_sequence fun statement inside =>
    unwinds_execute steps (Stmt.listPlaced_iff.mp placed statement inside)
  have ends (flow : Flow) : Adds (liftM (closure.result flow)) fun result more =>
      more = [] ∧ (closure.isInitializer = false → result = flow.value) := by
    apply adds_lift
    intro before result after ran
    refine ⟨rfl, fun plain => ?_⟩
    rw [Closure.result_of_plain plain] at ran
    cases ran
    rfl
  apply (silent_lift _).bind
  intro inner own silent
  apply (adds_within inner body).bind
  intro flow more unwinds
  apply (ends flow).imp
  rintro result _ ⟨rfl, valued⟩
  refine ⟨flow, ?_, valued⟩
  rw [List.append_nil]
  exact silent.unwinds unwinds

end Lox
