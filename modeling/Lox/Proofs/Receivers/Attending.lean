import Lox.Proofs.Receivers.Denotation

/-!
# Watched programs keep everything noted

Everything goes by induction on the steps, with expressions, statements and calls
together. The moments that a watched program comes to are those of the machine,
so each of them stands at a visit of the analysis.
-/

namespace Lox

variable {survey : Survey} {distances : Distances} {before : Watch} {steps : Nat}
variable {receiver : Option Receiver}

/-- What is watched within a number of steps keeps everything noted, if it starts
at a sound moment. -/
structure Survey.Attends (survey : Survey) (distances : Distances) (steps : Nat) : Prop where
  evaluate : ∀ {receiver : Option Receiver} {value : Expr} {before : Watch},
    Moment.Sound survey distances ⟨steps, .node (.expr value), before.machine⟩ →
    before.Sound → before.Around receiver →
    (Watching.evaluate steps receiver value).Keeps before fun after result => result.Noted after
  execute : ∀ {receiver : Option Receiver} {statement : Stmt} {before : Watch},
    Moment.Sound survey distances ⟨steps, .node (.stmt statement), before.machine⟩ →
    before.Sound → before.Around receiver →
    (Watching.execute steps receiver statement).Keeps before fun after flow => flow.Noted after
  invoke : ∀ {callable : Callable} {arguments : List Value} {line : Nat} {before : Watch},
    Moment.Sound survey distances ⟨steps, .call callable arguments, before.machine⟩ →
    before.Sound → callable.Noted before → (∀ value ∈ arguments, value.Noted before) →
    (Watching.invoke steps callable arguments line).Keeps before fun after value =>
      value.Noted after

theorem Flow.Noted.grow {after : Watch} {flow : Flow} (noted : flow.Noted before)
    (growth : before.Extends after) : flow.Noted after := by
  cases flow with
  | normal => trivial
  | returned value => exact Value.Noted.grow noted growth

/-! ## Lists -/

namespace Watching

/-- Statements one after another, each of which is watched behind those in front
of it. -/
theorem keeps_sequence {execute : Stmt → Watching Flow} {statements : List Stmt}
    (each : ∀ front statement back middle, statements = front ++ statement :: back →
      sequence execute front before = .ok .normal middle → middle.Sound →
      middle.Around receiver →
      (execute statement).Keeps middle fun after flow => flow.Noted after)
    (sound : before.Sound) (around : before.Around receiver) :
    (sequence execute statements).Keeps before fun after flow => flow.Noted after := by
  induction statements generalizing before with
  | nil => exact keeps_pure sound trivial
  | cons first rest ih =>
      apply (each [] first rest before rfl rfl sound around).bind
      intro middle flow ran grows noted
      cases flow with
      | returned value => exact keeps_pure grows.sound noted
      | normal =>
          refine ih ?_ grows.sound (around.grow grows)
          intro front statement back later shape ranFront
          exact each (first :: front) statement back later (shape ▸ rfl)
            ((bind_of_ok ran).trans ranFront)

/-- Expressions from left to right, each of which is watched behind those in front
of it. -/
theorem keeps_collect {evaluate : Expr → Watching Value} {values : List Expr}
    (each : ∀ front value back results middle, values = front ++ value :: back →
      collect evaluate front before = .ok results middle → middle.Sound →
      middle.Around receiver →
      (evaluate value).Keeps middle fun after result => result.Noted after)
    (sound : before.Sound) (around : before.Around receiver) :
    (collect evaluate values).Keeps before fun after results =>
      ∀ result ∈ results, result.Noted after := by
  induction values generalizing before with
  | nil => exact keeps_pure sound (by simp)
  | cons first rest ih =>
      apply (each [] first rest [] before rfl rfl sound around).bind
      intro middle result ran grows noted
      have others : (collect evaluate rest).Keeps middle fun after results =>
          ∀ result ∈ results, result.Noted after := by
        refine ih ?_ grows.sound (around.grow grows)
        intro front value back results later shape ranFront
        refine each (first :: front) value back (result :: results) later (shape ▸ rfl) ?_
        exact (bind_of_ok ran).trans (bind_of_ok ranFront)
      apply others.bind
      intro after results _ growsOn othersNoted
      apply keeps_pure growsOn.sound
      exact List.forall_mem_cons.mpr ⟨noted.grow growsOn.toExtends, othersNoted⟩

/-! ## New scopes -/

/-- A new scope for code with a receiver, which binds ordinary names only. -/
theorem keeps_enter {outer : Environment} {bindings : Bindings Value} (sound : before.Sound)
    (allocated : outer.Allocated before.machine.store)
    (holds : outer.receiver? before.machine.store = receiver)
    (bound : ∀ name value, bindings.get? name = some value →
      IsOrdinaryName name ∧ value.Noted before) :
    (lift (Run.newScope outer bindings)).Keeps before fun opened inner =>
      Watch.Around receiver
        { opened with machine := { opened.machine with environment := inner } } := by
  have free (name : String) (keyword : ¬ IsOrdinaryName name) : bindings.get? name = none := by
    cases held : bindings.get? name with
    | none => rfl
    | some value => exact absurd (bound name value held).1 keyword
  have bindable (name : String) (value : Value) (held : bindings.get? name = some value) :
      before.Bindable name value :=
    .of_ordinary (bound name value held).1 (bound name value held).2
  apply (keeps_newScope sound outer bindable).imp
  rintro opened inner grows ⟨scope, rfl, inStore, contents⟩
  constructor
  · exact List.forall_mem_cons.mpr ⟨inStore, allocated.grow grows.store⟩
  · refine (Environment.receiver?_of_none ?_).trans ?_
    · exact (congrArg (Bindings.get? · "this") contents).trans
        (free _ Environment.not_ordinary_this)
    · exact (Environment.receiver?_grow allocated grows.store).trans holds
  · apply Environment.superclass?_of_none
    exact (congrArg (Bindings.get? · "super") contents).trans
      (free _ Environment.not_ordinary_super)

/-- The parameters of a function are bound to noted values. -/
theorem bound_parameters {closure : Closure} {arguments : List Value} (noted : closure.Noted before)
    (given : ∀ value ∈ arguments, value.Noted before) {name : String} {value : Value}
    (held : (closure.parameterBindings arguments).get? name = some value) :
    IsOrdinaryName name ∧ value.Noted before := by
  have among := mem_of_contains_parameterBindings (Option.isSome_of_eq_some held)
  obtain ⟨parameter, member, rfl⟩ := List.mem_map.mp among
  exact ⟨noted.ordinary parameter member, given value (mem_of_parameterBindings held)⟩

/-! ## Expressions -/

section Step

variable (binds : survey.Binds distances) (below : survey.Attends distances steps)
include below

/-- Code in a new scope that binds ordinary names only. -/
theorem keeps_body {outer : Environment} {bindings : Bindings Value} {body : List Stmt}
    (sound : before.Sound) (allocated : outer.Allocated before.machine.store)
    (holds : outer.receiver? before.machine.store = receiver)
    (bound : ∀ name value, bindings.get? name = some value →
      IsOrdinaryName name ∧ value.Noted before)
    (members : ∀ front statement back inner first second, body = front ++ statement :: back →
      Run.newScope outer bindings before.machine = .ok inner first →
      Flow.sequence (Lox.execute steps) front { first with environment := inner } =
        .ok .normal second →
      Moment.Sound survey distances ⟨steps, .node (.stmt statement), second⟩) :
    Keeps (do
      let inner ← lift (Run.newScope outer bindings)
      within inner (sequence (execute steps receiver) body)) before fun after flow =>
        flow.Noted after := by
  apply (keeps_enter sound allocated holds bound).bind
  intro opened inner ran grows around
  have entered := (forgets_lift (Run.newScope outer bindings)).of_ok ran
  refine keeps_within ?_ fun growth noted => Flow.Noted.grow noted growth
  refine keeps_sequence ?_ (grows.sound.of_store rfl (Nat.le_refl _) rfl) around
  intro front statement back middle shape ranFront soundThere aroundThere
  exact below.execute
    (members front statement back _ _ _ shape entered (runs_sequence ranFront)) soundThere
    aroundThere

/-- The callee, the arguments from left to right, and what is called with them. -/
theorem attends_call {callee : Expr} {paren : Token} {arguments : List Expr}
    (sound : Moment.Sound survey distances
      ⟨steps + 1, .node (.expr (.call callee paren arguments)), before.machine⟩)
    (noted : before.Sound) (around : before.Around receiver) :
    (evaluate (steps + 1) receiver (.call callee paren arguments)).Keeps before
      fun after result => result.Noted after := by
  apply (below.evaluate (sound.enters .callee) noted around).bind
  intro middle function ran grows functionNoted
  have given : (collect (evaluate steps receiver) arguments).Keeps middle
      fun after results => ∀ result ∈ results, result.Noted after := by
    refine keeps_collect ?_ grows.sound (around.grow grows)
    rintro front value back results later rfl ranFront soundThere aroundThere
    have next := sound.enters (.argument (runs_evaluate ran) (runs_collect ranFront))
    exact below.evaluate next soundThere aroundThere
  apply given.bind
  intro last values ranValues growsOn valuesNoted
  cases found : function.callable? with
  | none => exact keeps_fail growsOn.sound
  | some callable =>
      dsimp only
      split
      · next enough =>
          have next := sound.enters
            (.call (runs_evaluate ran) (runs_collect ranValues) found enough)
          exact below.invoke next growsOn.sound
            ((functionNoted.grow growsOn.toExtends).callable found) valuesNoted
      · exact keeps_fail growsOn.sound

include binds

theorem attends_evaluate {value : Expr}
    (sound : Moment.Sound survey distances ⟨steps + 1, .node (.expr value), before.machine⟩)
    (noted : before.Sound) (around : before.Around receiver) :
    (evaluate (steps + 1) receiver value).Keeps before fun after result =>
      result.Noted after := by
  cases value with
  | literal literal => exact keeps_pure noted ((isPlain_literal literal).noted _)
  | grouping inner => exact below.evaluate (sound.enters .grouping) noted around
  | unary operator operand =>
      apply (below.evaluate (sound.enters .operand) noted around).bind
      intro middle value _ grows _
      exact keeps_ofOperator grows.sound operator fun _ => isPlain_unary
  | binary left operator right =>
      apply (below.evaluate (sound.enters .left) noted around).bind
      intro middle one ran grows _
      apply (below.evaluate (sound.enters (.right (runs_evaluate ran))) grows.sound
        (around.grow grows)).bind
      intro last other _ growsOn _
      exact keeps_ofOperator growsOn.sound operator fun _ => isPlain_binary
  | logical left operator right =>
      apply (below.evaluate (sound.enters .logicalLeft) noted around).bind
      intro middle one ran grows oneNoted
      split
      · exact keeps_pure grows.sound oneNoted
      · next undecided =>
          have next := sound.enters
            (.logicalRight (runs_evaluate ran) (Bool.eq_false_iff.mpr undecided))
          exact below.evaluate next grows.sound (around.grow grows)
  | «variable» reference => exact keeps_read noted reference
  | assign reference value =>
      obtain ⟨analysis, loose, visited, _⟩ := sound.expr (by simp)
      apply (below.evaluate (sound.enters .assigned) noted around).bind
      intro middle value _ grows valueNoted
      apply (keeps_write grows.sound (survey.placed visited).1 valueNoted).bind
      intro last _ _ growsOn _
      exact keeps_pure growsOn.sound (valueNoted.grow growsOn.toExtends)
  | call callee paren arguments => exact attends_call below sound noted around
  | get object name =>
      apply (below.evaluate (sound.enters .object) noted around).bind
      intro middle value _ grows valueNoted
      cases value with
      | object found => exact keeps_property grows.sound valueNoted name
      | _ => exact keeps_fail grows.sound
  | set object name value =>
      apply (below.evaluate (sound.enters .changed) noted around).bind
      intro middle target ran grows targetNoted
      cases target with
      | object found =>
          apply (below.evaluate (sound.enters (.stored (runs_evaluate ran))) grows.sound
            (around.grow grows)).bind
          intro last value _ growsOn valueNoted
          apply (keeps_setProperty growsOn.sound found name valueNoted).bind
          intro after _ _ growsLast _
          exact keeps_pure growsLast.sound (valueNoted.grow growsLast.toExtends)
      | _ => exact keeps_fail grows.sound
  | this reference =>
      apply (keeps_see noted (around.this_right noted binds sound)).bind
      exact fun middle _ _ grows _ => keeps_read grows.sound reference
  | super reference method =>
      apply (keeps_see noted (around.super_right noted binds sound)).bind
      exact fun middle _ _ grows _ => keeps_superMethod grows.sound reference method

omit binds

/-- What is bound when a scope has nothing in it yet. -/
theorem keeps_block {body : List Stmt}
    (sound : Moment.Sound survey distances
      ⟨steps + 1, .node (.stmt (.block body)), before.machine⟩)
    (noted : before.Sound) (around : before.Around receiver) :
    (execute (steps + 1) receiver (.block body)).Keeps before fun after flow =>
      flow.Noted after := by
  have inner : Keeps (do
      let inner ← lift (Run.newScope before.machine.environment .empty)
      within inner (sequence (execute steps receiver) body)) before fun after flow =>
        flow.Noted after := by
    refine keeps_body below noted around.allocated around.holds ?_ ?_
    · intro name value held
      cases held
    · rintro front statement back inner first second rfl entered ran
      exact sound.enters (.member entered ran)
  exact keeps_get inner

theorem attends_conditional {condition : Expr} {consequent : Stmt} {alternative : Option Stmt}
    (sound : Moment.Sound survey distances
      ⟨steps + 1, .node (.stmt (.conditional condition consequent alternative)), before.machine⟩)
    (noted : before.Sound) (around : before.Around receiver) :
    (execute (steps + 1) receiver (.conditional condition consequent alternative)).Keeps before
      fun after flow => flow.Noted after := by
  apply (below.evaluate (sound.enters .condition) noted around).bind
  intro middle value ran grows _
  split
  · next holds =>
      have next := sound.enters (.consequent (runs_evaluate ran) holds)
      exact below.execute next grows.sound (around.grow grows)
  · next fails =>
      cases alternative with
      | none => exact keeps_pure grows.sound trivial
      | some other =>
          have next := sound.enters
            (.alternative (runs_evaluate ran) (Bool.eq_false_iff.mpr fails))
          exact below.execute next grows.sound (around.grow grows)

theorem attends_whileLoop {condition : Expr} {body : Stmt}
    (sound : Moment.Sound survey distances
      ⟨steps + 1, .node (.stmt (.whileLoop condition body)), before.machine⟩)
    (noted : before.Sound) (around : before.Around receiver) :
    (execute (steps + 1) receiver (.whileLoop condition body)).Keeps before fun after flow =>
      flow.Noted after := by
  apply (below.evaluate (sound.enters .whileCondition) noted around).bind
  intro middle value ran grows _
  split
  · next holds =>
      have test := runs_evaluate ran
      have aroundBody := around.grow grows
      apply (below.execute (sound.enters (.whileBody test holds)) grows.sound aroundBody).bind
      intro last flow round growsOn flowNoted
      cases flow with
      | returned value => exact keeps_pure growsOn.sound flowNoted
      | normal =>
          have next := sound.enters (.whileAgain test holds (runs_execute round))
          exact below.execute next growsOn.sound (aroundBody.grow growsOn)
  · exact keeps_pure grows.sound trivial

/-- A loop behind its first clause. -/
theorem attends_forLoop {condition increment : Option Expr} {body : Stmt}
    (sound : Moment.Sound survey distances
      ⟨steps + 1, .node (.stmt (.forLoop none condition increment body)), before.machine⟩)
    (noted : before.Sound) (around : before.Around receiver) :
    (execute (steps + 1) receiver (.forLoop none condition increment body)).Keeps before
      fun after flow => flow.Noted after := by
  have tested : (goesOn (evaluate steps receiver) condition).Keeps before fun _ _ => True := by
    cases condition with
    | none => exact keeps_pure noted trivial
    | some value =>
        apply (below.evaluate (sound.enters .forCondition) noted around).bind
        exact fun middle _ _ grows _ => keeps_pure grows.sound trivial
  apply tested.bind
  intro middle goesOn ran grows _
  cases goesOn with
  | false => exact keeps_pure grows.sound trivial
  | true =>
      have test := runs_goesOn ran
      have aroundBody := around.grow grows
      apply (below.execute (sound.enters (.forBody test)) grows.sound aroundBody).bind
      intro last flow round growsOn flowNoted
      have aroundNext := aroundBody.grow growsOn
      cases flow with
      | returned value => exact keeps_pure growsOn.sound flowNoted
      | normal =>
          cases increment with
          | none =>
              have next := sound.enters (.forAgain test (runs_execute round))
              exact below.execute next growsOn.sound aroundNext
          | some step =>
              have stepping := sound.enters (.forIncrement test (runs_execute round))
              apply (below.evaluate stepping growsOn.sound aroundNext).bind
              intro after _ stepped growsLast _
              have next := sound.enters
                (.forNext test (runs_execute round) (runs_evaluate stepped))
              exact below.execute next growsLast.sound (aroundNext.grow growsLast)

theorem attends_classDecl {name : Token} {superclass : Option Expr} {methods : List FunctionDecl}
    (sound : Moment.Sound survey distances
      ⟨steps + 1, .node (.stmt (.classDecl name superclass methods)), before.machine⟩)
    (noted : before.Sound) (around : before.Around receiver) :
    (execute (steps + 1) receiver (.classDecl name superclass methods)).Keeps before
      fun after flow => flow.Noted after := by
  obtain ⟨analysis, loose, visited, _⟩ := sound.stmt
  have placed := survey.placed visited
  cases superclass with
  | none =>
      apply (keeps_declareClass noted around placed.1 (by simp) placed.2.2).bind
      exact fun last _ _ growsOn _ => keeps_pure growsOn.sound trivial
  | some value =>
      apply (below.evaluate (sound.enters .superclass) noted around).bind
      intro middle result _ grows resultNoted
      have found : (lift (superclassOf name value result)).Keeps middle
          fun after cls => cls.Noted after := by
        cases result with
        | cls cls => exact keeps_pure grows.sound resultNoted
        | _ => exact keeps_fail grows.sound
      apply found.bind
      intro last cls _ growsOn clsNoted
      have given (other : Class) (same : some cls = some other) : other.Noted last := by
        cases same
        exact clsNoted
      have aroundNow := (around.grow grows).grow growsOn
      apply (keeps_declareClass growsOn.sound aroundNow placed.1 given placed.2.2).bind
      exact fun after _ _ growsLast _ => keeps_pure growsLast.sound trivial

theorem attends_execute {statement : Stmt}
    (sound : Moment.Sound survey distances ⟨steps + 1, .node (.stmt statement), before.machine⟩)
    (noted : before.Sound) (around : before.Around receiver) :
    (execute (steps + 1) receiver statement).Keeps before fun after flow => flow.Noted after := by
  obtain ⟨analysis, loose, visited, _⟩ := sound.stmt
  have placed := survey.placed visited
  cases statement with
  | expression value =>
      apply (below.evaluate (sound.enters .effect) noted around).bind
      exact fun middle _ _ grows _ => keeps_pure grows.sound trivial
  | print value =>
      apply (below.evaluate (sound.enters .printed) noted around).bind
      intro middle result _ grows _
      apply (keeps_print grows.sound result).bind
      exact fun last _ _ growsOn _ => keeps_pure growsOn.sound trivial
  | var name initializer =>
      cases initializer with
      | none =>
          have unset : Value.nil.Noted before := trivial
          apply (keeps_define noted placed.1 unset).bind
          exact fun last _ _ growsOn _ => keeps_pure growsOn.sound trivial
      | some value =>
          apply (below.evaluate (sound.enters .initializer) noted around).bind
          intro middle value _ grows valueNoted
          apply (keeps_define grows.sound placed.1 valueNoted).bind
          exact fun last _ _ growsOn _ => keeps_pure growsOn.sound trivial
  | block body => exact keeps_block below sound noted around
  | conditional condition consequent alternative =>
      exact attends_conditional below sound noted around
  | whileLoop condition body => exact attends_whileLoop below sound noted around
  | forLoop initializer condition increment body =>
      cases initializer with
      | none => exact attends_forLoop below sound noted around
      | some clause =>
          apply (below.execute (sound.enters .forInitializer) noted around).bind
          intro middle flow ran grows _
          exact below.execute (sound.enters (.forRest (runs_execute ran))) grows.sound
            (around.grow grows)
  | function declaration =>
      have named := FunctionDecl.Placed.name placed
      apply (keeps_declare noted around (FunctionDecl.Placed.parameters placed)).bind
      intro middle closure _ grows closureNoted
      have value : (Value.function closure).Noted middle := closureNoted
      apply (keeps_define grows.sound named value).bind
      exact fun last _ _ growsOn _ => keeps_pure growsOn.sound trivial
  | returning keyword value =>
      cases value with
      | none => exact keeps_pure noted trivial
      | some value =>
          apply (below.evaluate (sound.enters .returned) noted around).bind
          exact fun middle _ _ grows valueNoted => keeps_pure grows.sound valueNoted
  | classDecl name superclass methods => exact attends_classDecl below sound noted around

theorem attends_invoke {callable : Callable} {arguments : List Value} {line : Nat}
    (sound : Moment.Sound survey distances
      ⟨steps + 1, .call callable arguments, before.machine⟩)
    (noted : before.Sound) (callableNoted : callable.Noted before)
    (argumentsNoted : ∀ value ∈ arguments, value.Noted before) :
    (invoke (steps + 1) callable arguments line).Keeps before fun after value =>
      value.Noted after := by
  cases callable with
  | native function => exact keeps_callHost noted function arguments line
  | function closure =>
      have closureNoted : closure.Noted before := callableNoted
      have body : Keeps (do
          let inner ← lift
            (Run.newScope closure.environment (closure.parameterBindings arguments))
          within inner (sequence
            (execute steps (before.receivers closure.identity)) closure.declaration.body))
          before fun after flow => flow.Noted after := by
        refine keeps_body below noted closureNoted.allocated closureNoted.receiver.symm ?_ ?_
        · exact fun name value held => bound_parameters closureNoted argumentsNoted held
        · intro front statement back inner first second shape entered ran
          exact sound.enters (.body entered shape ran)
      have called : Keeps (do
          let flow ← (do
            let inner ← lift
              (Run.newScope closure.environment (closure.parameterBindings arguments))
            within inner (sequence
              (execute steps (before.receivers closure.identity)) closure.declaration.body))
          result (before.receivers closure.identity) closure flow)
          before fun after value => value.Noted after := by
        apply body.bind
        intro after flow _ grows flowNoted
        have notedNow := closureNoted.grow grows.toExtends
        refine keeps_result grows.sound notedNow ?_ flowNoted
        rw [Environment.receiver?_grow closureNoted.allocated grows.store, closureNoted.receiver]
      rw [bind_assoc] at called
      exact keeps_get called
  | cls found =>
      have foundNoted : found.Noted before := callableNoted
      apply (keeps_newInstance noted found).bind
      intro created object made grows ofClass
      have objectNoted : object.cls.Noted created :=
        ofClass ▸ Class.Noted.grow foundNoted grows.toExtends
      cases initializes : found.initializer? with
      | none => exact keeps_pure grows.sound objectNoted
      | some initializer =>
          have methodNoted : initializer.NotedMethod created :=
            objectNoted.method (ofClass ▸ initializes)
          apply (keeps_bind grows.sound methodNoted objectNoted).bind
          intro bounded bound ranBind growsOn boundNoted
          have next := sound.enters (.construct ((forgets_lift _).of_ok made) initializes
            ((forgets_bind initializer object).of_ok ranBind))
          have given (value : Value) (member : value ∈ arguments) : value.Noted bounded :=
            (argumentsNoted value member).grow (grows.trans growsOn).toExtends
          apply (below.invoke next growsOn.sound boundNoted.2 given).bind
          intro after _ _ growsLast _
          exact keeps_pure growsLast.sound (objectNoted.grow (growsOn.trans growsLast).toExtends)

end Step

/-! ## Programs -/

/-- Everything watched keeps everything noted, however many steps it takes. -/
theorem attends_all (binds : survey.Binds distances) (steps : Nat) :
    survey.Attends distances steps := by
  induction steps with
  | zero =>
      constructor
      · exact fun _ noted _ => keeps_throw noted
      · exact fun _ noted _ => keeps_throw noted
      · exact fun _ noted _ _ => keeps_throw noted
  | succ steps ih =>
      constructor
      · exact fun sound noted around => attends_evaluate binds ih sound noted around
      · exact fun sound noted around => attends_execute ih sound noted around
      · exact fun sound noted callable arguments => attends_invoke ih sound noted callable arguments

/-- A watched program keeps everything noted, statement by statement. -/
theorem keeps_interpret (binds : survey.Binds distances) {program : List Stmt} {analysis : Analysis}
    (lists : survey.Lists program analysis []) (outside : analysis.scopes = [])
    (inside : before.machine.Inside survey distances [] []) (noted : before.Sound)
    (around : before.Around none) : (interpret steps program).Keeps before fun _ _ => True := by
  induction program generalizing analysis before with
  | nil => exact keeps_flush noted
  | cons first rest ih =>
      rw [← outside] at inside
      have sound : Moment.Sound survey distances ⟨steps, .node (.stmt first), before.machine⟩ :=
        ⟨inside.sound, inside.distances, analysis, [], .inside lists.head inside.fits⟩
      apply ((attends_all binds steps).execute sound noted around).bind
      intro middle flow ran grows _
      have behind := (inside.after_stmt lists.head
        (((forgetsWithin steps).execute none first).of_ok ran)).1
      rw [outside] at behind
      apply ih lists.tail _ behind grows.sound (around.grow grows)
      rw [Analysis.scopes_stmt, outside]
      rfl

end Watching

end Lox
