import Lox.Proofs.Origins.Session

/-!
# Globals are declared outside of all scopes

A text adds to the globals what its program declares outside of all scopes and nothing
else. Evaluating an expression adds no global, whatever it assigns and calls, and neither
does a statement that is executed inside of a scope. An assignment to a name that is
neither local nor global fails.
-/

namespace Lox

/-- A name is bound in the global scope. -/
def Machine.IsGlobal (machine : Machine) (name : String) : Prop :=
  (machine.store.scope globalScope).contains name = true

/-- The machine behind what is about to be evaluated at a moment, however that ends. -/
def Moment.behind (moment : Moment) (line : Nat) : Machine :=
  match moment.activity with
  | .node (.expr value) => (evaluate moment.steps value).behind moment.machine
  | .node (.stmt statement) => (execute moment.steps statement).behind moment.machine
  | .call callable arguments =>
      (invoke moment.steps callable arguments line).behind moment.machine

/-- A moment in front of a statement outside of all scopes that declares a name. -/
def Moment.DeclaresGlobal (moment : Moment) (name : String) : Prop :=
  moment.machine.environment = globalEnvironment ∧
    ∃ statement, moment.activity = .node (.stmt statement) ∧ name ∈ statement.declares

/-! ## Moments -/

section Moments

variable {survey : Survey} {distances : Distances} {machine : Machine} {steps : Nat}

/-- Names that may be global, where functions may come from any declaration. -/
def Origins.ofNames (names : String → Prop) : Origins :=
  .ofDeclarations names fun _ => True

/-- Where functions may come from any declaration, every value is permitted. -/
theorem Origins.permits_all (names : String → Prop) (value : Value) :
    (ofNames names).PermitsValue value := by
  cases value with
  | cls cls => exact fun _ _ _ _ _ _ _ => trivial
  | object object => exact fun _ _ _ _ _ _ _ => trivial
  | _ => trivial

/-- Where functions may come from any declaration, accepted programs are covered. -/
theorem Origins.covers_all (names : String → Prop)
    (accepted : ∀ visit, survey.visited visit → visit.Accepted distances) :
    (ofNames names).Covers (Moment.Sound survey distances) :=
  covers_sound accepted (fun _ => trivial) fun _ _ _ => trivial

/-- The machine of a sound moment permits what is global there already. -/
theorem Machine.Sound.permits (sound : machine.Sound survey) {names : String → Prop}
    (global : ∀ name, machine.IsGlobal name → names name) :
    (Origins.ofNames names).Permits machine where
  allocated := sound.globals
  globals := global
  held _ _ value _ := Origins.permits_all names value
  fields _ _ value _ := Origins.permits_all names value
  host _ _ _ value _ := Origins.permits_all names value

/-- Where the innermost scope is the global one there is no other. -/
theorem Machine.Fits.environment_eq {scopes : List (Bindings Readiness)}
    {loose : List (List String)} {outer : Environment} (fits : machine.Fits scopes loose)
    (around : machine.environment = globalScope :: outer) :
    machine.environment = globalEnvironment := by
  unfold Machine.Fits at fits
  rw [around] at fits ⊢
  cases fits with
  | globals => rfl
  | inside apart => exact absurd rfl apart

/-- What is about to be evaluated adds no global but what a statement declares outside of
all scopes. -/
theorem Moment.isGlobal_behind {moment : Moment} (sound : moment.Sound survey distances)
    (accepted : ∀ visit, survey.visited visit → visit.Accepted distances) {line : Nat}
    {name : String} (global : (moment.behind line).IsGlobal name) :
    moment.machine.IsGlobal name ∨ moment.DeclaresGlobal name := by
  let origins : Origins :=
    .ofNames fun name => moment.machine.IsGlobal name ∨ moment.DeclaresGlobal name
  have covers : origins.Covers (Moment.Sound survey distances) := Origins.covers_all _ accepted
  have permits : origins.Permits moment.machine := sound.1.permits fun _ => .inl
  have values (value : Value) : origins.PermitsValue value := Origins.permits_all _ value
  have keeps := Origins.keepsWithin covers moment.steps
  suffices behind : origins.Permits (moment.behind line) from behind.globals name global
  obtain ⟨steps, activity, machine⟩ := moment
  cases activity with
  | node node =>
      cases node with
      | expr value => exact (keeps.evaluate sound permits).behind
      | stmt statement =>
          refine (keeps.execute sound permits ?_).behind
          obtain ⟨analysis, loose, -, inside⟩ := sound.stmt
          intro outer around name declared
          exact .inr ⟨inside.fits.environment_eq around, statement, rfl, declared⟩
  | call callable arguments =>
      refine (keeps.invoke sound permits ?_ fun value _ => values value).behind
      cases callable with
      | native => trivial
      | function => trivial
      | cls => exact fun _ _ _ _ _ _ _ => trivial

end Moments

/-- An assignment to a name that is neither local nor global fails and changes nothing. -/
theorem Run.write_unbound {machine : Machine} {reference : Reference}
    (unnoted : machine.distances.get? reference.id = none)
    (unbound : ¬machine.IsGlobal reference.name.lexeme) (value : Value) :
    Run.write reference value machine =
      .error (.fault (.variableAt reference.name)) machine := by
  have target : target? reference machine = none := by
    rw [target?, unnoted, binder?_globalEnvironment]
    exact if_neg unbound
  change EStateM.bind (orFail (target? reference machine) _) _ machine = _
  rw [target]
  rfl

namespace Session

/-! ## Texts -/

variable {start : Session} {past : List (Nat × String)} {steps : Nat} {source : String}

/-- What is global stays global. -/
theorem isGlobal_proceed
    (sound : (start.after past).Sound (start.survey (past ++ [(steps, source)]))) {name : String}
    (global : (start.after past).machine.IsGlobal name) :
    ((start.after past).proceed (steps, source)).machine.IsGlobal name := by
  rw [proceed_eq]
  cases read : (readProgram source (start.after past).nextReference).1 with
  | error failure => exact global
  | ok program =>
      dsimp only
      cases clean : (bindProgram program (start.after past).machine.distances).1 with
      | cons first rest => exact global
      | nil =>
          have keeps : (interpret steps program).Keeps (start.survey (past ++ [(steps, source)]))
              ((start.after past).bound program) fun _ _ => True :=
            keeps_accepted sound (lists_of_accepts rfl ⟨read, clean⟩)
          unfold Run.Keeps at keeps
          dsimp only
          cases ran : interpret steps program ((start.after past).bound program) with
          | ok result after =>
              rw [ran] at keeps
              exact keeps.1.store.bound globalScope name global
          | error halt after =>
              rw [ran] at keeps
              exact keeps.store.bound globalScope name global

/-- A text adds no global but what its program declares outside of all scopes, in case
it runs. -/
theorem declared_of_isGlobal (settled : Settled start past)
    (sound : (start.after past).Sound (start.survey (past ++ [(steps, source)]))) {name : String}
    (global : ((start.after past).proceed (steps, source)).machine.IsGlobal name) :
    (start.after past).machine.IsGlobal name ∨
      ∃ program, (start.after past).Accepts source program ∧ name ∈ Stmt.listDeclares program := by
  let origins : Origins := .ofNames fun name => (start.after past).machine.IsGlobal name ∨
    ∃ program, (start.after past).Accepts source program ∧ name ∈ Stmt.listDeclares program
  have permits : origins.Permits (start.after past).machine :=
    sound.machine.permits fun _ => .inl
  have behind : origins.Permits ((start.after past).proceed (steps, source)).machine :=
    permits_proceed
      (fun program accepts => ⟨_, Origins.covers_all _ fun _ visited =>
        (settled.bound accepts visited).1, sound_of_accepts sound accepts⟩)
      (fun program accepts name declared => .inr ⟨program, accepts, declared⟩) permits
  exact behind.globals name global

variable (time : Native → Nat → Except String Float) (policy : SinkPolicy)

/-- Neither `this` nor `super` is ever global. -/
theorem ordinary_of_isGlobal (past : List (Nat × String)) {name : String}
    (global : ((Session.start (Host.ofTime time) policy).after past).machine.IsGlobal name) :
    IsOrdinaryName name := by
  let origins : Origins := .ofNames IsOrdinaryName
  have clock : origins.name clock.name := ⟨by decide, by decide⟩
  have permits : origins.Permits ((Session.start (Host.ofTime time) policy).after past).machine :=
    permits_after time policy clock past
      (fun _ => coversRun_of_accepts time policy (Origins.covers_all IsOrdinaryName))
      fun read => Stmt.ordinary_listDeclares (placed_of_read read).1
  exact permits.globals name global

/-- After a text, whether it fails or not, the globals are those before it and names that
its program declares outside of all scopes; neither `this` nor `super` is among them. At
every moment of its run, what is about to be evaluated adds no global but what a
statement declares outside of all scopes, whether it ends well or not. An assignment to a
name without a distance that is not global once the new value is computed fails on the
undefined variable and changes nothing. -/
theorem globals_declared (past : List (Nat × String)) (steps : Nat) (source : String) :
    (∀ name, ((Session.start (Host.ofTime time) policy).after past).machine.IsGlobal name →
      ((Session.start (Host.ofTime time) policy).after
        (past ++ [(steps, source)])).machine.IsGlobal name) ∧
    (∀ name, ((Session.start (Host.ofTime time) policy).after
        (past ++ [(steps, source)])).machine.IsGlobal name →
      (name ≠ "this" ∧ name ≠ "super") ∧
      (((Session.start (Host.ofTime time) policy).after past).machine.IsGlobal name ∨
        ∃ program,
          ((Session.start (Host.ofTime time) policy).after past).Accepts source program ∧
          name ∈ Stmt.listDeclares program)) ∧
    ∀ moment, (Session.start (Host.ofTime time) policy).Occurs past steps source moment →
      (∀ line name, (moment.behind line).IsGlobal name →
        moment.machine.IsGlobal name ∨ moment.DeclaresGlobal name) ∧
      ∀ fewer reference value result middle, moment.steps = fewer + 1 →
        moment.activity = .node (.expr (.assign reference value)) →
        moment.machine.distances.get? reference.id = none →
        Lox.evaluate fewer value moment.machine = .ok result middle →
        ¬middle.IsGlobal reference.name.lexeme →
        Lox.evaluate moment.steps (.assign reference value) moment.machine =
          .error (.fault (.variableAt reference.name)) middle := by
  have sound := sound_before time policy past (steps, source)
  refine ⟨?_, ?_, ?_⟩
  · intro name global
    rw [after_concat]
    exact isGlobal_proceed sound global
  · intro name global
    refine ⟨ordinary_of_isGlobal time policy _ global, ?_⟩
    rw [after_concat] at global
    exact declared_of_isGlobal (settled_start time policy past) sound global
  · intro moment occurs
    obtain ⟨momentSound, accepted⟩ := occurs.sound rfl (sound_start _ time policy)
    refine ⟨fun line name => Moment.isGlobal_behind momentSound accepted, ?_⟩
    intro fewer reference value result middle limit _ unnoted ran unbound
    have back := (restoresWithin fewer).evaluate value moment.machine
    rw [Run.behind_ok ran] at back
    rw [← back.distances] at unnoted
    -- The value comes first, and only behind it the name is found to be missing.
    have failed := Run.write_unbound unnoted unbound result
    rw [limit]
    change (Lox.evaluate fewer value >>= _) moment.machine = _
    rw [Run.step_bind, ran]
    change (Run.write reference result >>= _) middle = _
    rw [Run.step_bind, failed]

end Session

end Lox
