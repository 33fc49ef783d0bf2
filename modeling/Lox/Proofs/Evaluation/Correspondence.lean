import Lox.Proofs.Evaluation.Alike

/-!
# Programs alike run alike

What a run does depends neither on the numbers of the uses of names nor on the
lines of tokens. On machines alike, programs alike end in the same way, with
results alike, and leave machines alike behind.
-/

namespace Lox

/-- Two runs end in the same way: both succeed with related results or both halt
for the same reason, and the machines behind them are alike. -/
inductive Run.Agree {α β : Type} (likeness : Likeness) (related : α → β → Prop) :
    EStateM.Result Halt Machine α → EStateM.Result Halt Machine β → Prop where
  | ok {value : α} {value' : β} {after after' : Machine} (results : related value value')
      (machines : after.Alike likeness after') :
      Run.Agree likeness related (.ok value after) (.ok value' after')
  | error {halt halt' : Halt} {after after' : Machine} (halts : halt.Alike likeness halt')
      (machines : after.Alike likeness after') :
      Run.Agree likeness related (.error halt after) (.error halt' after')

/-- Two steps end in the same way on machines alike. -/
def Run.Corresponds {α β : Type} (likeness : Likeness) (step : Run α) (step' : Run β)
    (related : α → β → Prop) : Prop :=
  ∀ ⦃machine machine' : Machine⦄, machine.Alike likeness machine' →
    Run.Agree likeness related (step machine) (step' machine')

variable {likeness : Likeness}

namespace Run

variable {α β γ δ : Type} {related : α → β → Prop}

/-! ## Steps put together -/

theorem corresponds_pure {value : α} {value' : β} (holds : related value value') :
    Corresponds likeness (pure value) (pure value') related :=
  fun _ _ machines => .ok holds machines

theorem corresponds_throw {halt halt' : Halt} (halts : halt.Alike likeness halt') :
    Corresponds likeness (throw halt : Run α) (throw halt' : Run β) related :=
  fun _ _ machines => .error halts machines

theorem corresponds_fail {fault fault' : RuntimeFault} (faults : fault.Alike likeness fault') :
    Corresponds likeness (fail fault : Run α) (fail fault' : Run β) related :=
  corresponds_throw (.fault faults)

theorem corresponds_get :
    Corresponds likeness (get : Run Machine) (get : Run Machine) (Machine.Alike likeness) :=
  fun _ _ machines => .ok machines machines

theorem Corresponds.bind {step : Run α} {step' : Run β} {next : α → Run γ} {next' : β → Run δ}
    {final : γ → δ → Prop} (front : Corresponds likeness step step' related)
    (back : ∀ {value value'}, related value value' →
      Corresponds likeness (next value) (next' value') final) :
    Corresponds likeness (step >>= next) (step' >>= next') final := by
  intro machine machine' machines
  have first := front machines
  change Agree likeness final (EStateM.bind step next machine) (EStateM.bind step' next' machine')
  unfold EStateM.bind
  generalize step machine = result, step' machine' = result' at first
  cases first with
  | ok results behind => exact back results behind
  | error halts behind => exact .error halts behind

/-- The environments of two steps inside others do not matter behind them. -/
theorem corresponds_within (environment : Environment) {step : Run α} {step' : Run β}
    (inside : Corresponds likeness step step' related) :
    Corresponds likeness (within environment step) (within environment step') related := by
  intro machine machine' machines
  have ran := inside (machines.withEnvironment environment)
  unfold within
  rw [machines.environment]
  generalize step { machine with environment := environment } = result,
    step' { machine' with environment := environment } = result' at ran
  cases ran with
  | ok results behind => exact .ok results (behind.withEnvironment machine'.environment)
  | error halts behind => exact .error halts (behind.withEnvironment machine'.environment)

theorem corresponds_orFail {found : Option α} {found' : Option β} {fault fault' : RuntimeFault}
    (same : Option.Rel related found found') (faults : fault.Alike likeness fault') :
    Corresponds likeness (orFail found fault) (orFail found' fault') related := by
  cases same with
  | none => exact corresponds_fail faults
  | some holds => exact corresponds_pure holds

/-! ## Single steps -/

theorem corresponds_modifyStore {change change' : Store → Store}
    (changes : ∀ {store store'}, store.Alike likeness store' →
      (change store).Alike likeness (change' store')) :
    Corresponds likeness (modifyStore change) (modifyStore change') fun _ _ => True :=
  fun _ _ machines => .ok trivial (machines.withStore (changes machines.store))

theorem corresponds_newIdentity :
    Corresponds likeness newIdentity newIdentity Eq := by
  intro machine machine' machines
  refine .ok machines.nextIdentity ⟨machines.store, machines.environment, machines.distances, ?_,
    machines.hostCalls, machines.sink, machines.host⟩
  exact congrArg (· + 1) machines.nextIdentity

theorem corresponds_newScope (outer : Environment) {bindings bindings' : Bindings Value}
    (same : bindings.Related (Value.Alike likeness) bindings') :
    Corresponds likeness (newScope outer bindings) (newScope outer bindings') Eq := by
  intro machine machine' machines
  refine .ok ?_ (machines.withStore (machines.store.addScope same))
  exact congrArg (fun size => (⟨size⟩ : ScopeRef) :: outer) machines.store.scopes

theorem corresponds_newInstance {cls cls' : Class} (same : cls.Alike likeness cls') :
    Corresponds likeness (newInstance cls) (newInstance cls') (Instance.Alike likeness) := by
  intro machine machine' machines
  refine .ok ⟨?_, same⟩ (machines.withStore machines.store.addInstance)
  exact congrArg InstanceRef.mk machines.store.fields

theorem corresponds_define {name name' : String} {value value' : Value} (names : name = name')
    (same : value.Alike likeness value') :
    Corresponds likeness (define name value) (define name' value') fun _ _ => True := by
  subst names
  rintro ⟨store, environment, distances, nextIdentity, hostCalls, sink, host⟩
    ⟨store', environment', distances', nextIdentity', hostCalls', sink', host'⟩ machines
  cases machines.environment
  cases environment with
  | nil => exact .ok trivial machines
  | cons scope outer =>
      exact .ok trivial (machines.withStore (machines.store.define scope name same))

theorem corresponds_read {reference reference' : Reference}
    (use : reference.Alike likeness reference') :
    Corresponds likeness (read reference) (read reference') (Value.Alike likeness) := by
  apply corresponds_get.bind
  intro machine machine' machines
  apply corresponds_orFail _ (RuntimeFault.alike_variableAt use.name)
  rw [machines.distances use.id, machines.environment, likeness.lexeme use.name]
  split
  · exact machines.store.lookupAt? _ _ _
  · exact machines.store.lookup? _ _

theorem target?_alike {machine machine' : Machine} (machines : machine.Alike likeness machine')
    {reference reference' : Reference} (use : reference.Alike likeness reference') :
    target? reference machine = target? reference' machine' := by
  unfold target?
  rw [machines.distances use.id, machines.environment, likeness.lexeme use.name,
    machines.store.binder?]

theorem corresponds_write {reference reference' : Reference} {value value' : Value}
    (use : reference.Alike likeness reference') (same : value.Alike likeness value') :
    Corresponds likeness (write reference value) (write reference' value') fun _ _ => True := by
  apply corresponds_get.bind
  intro machine machine' machines
  rw [target?_alike machines use]
  refine Corresponds.bind (?_ : Corresponds likeness _ _ Eq) ?_
  · apply corresponds_orFail _ (RuntimeFault.alike_variableAt use.name)
    cases target? reference' machine' with
    | none => exact .none
    | some scope => exact .some rfl
  · rintro scope _ rfl
    rw [likeness.lexeme use.name]
    exact corresponds_modifyStore fun stores => stores.define scope _ same

theorem corresponds_print {value value' : Value} (same : value.Alike likeness value') :
    Corresponds likeness (print value) (print value') fun _ _ => True := by
  intro machine machine' machines
  unfold print
  rw [same.pieces, machines.sink]
  rcases machine'.sink.writeAll (value'.pieces ++ ["\n"]) with ⟨refusal, sink⟩
  have left : Machine.Alike likeness { machine with sink := sink } { machine' with sink := sink } :=
    ⟨machines.store, machines.environment, machines.distances, machines.nextIdentity,
      machines.hostCalls, rfl, machines.host⟩
  cases refusal with
  | none => exact .ok trivial left
  | some reason => exact .error (.fault (.output reason)) left

theorem corresponds_flush : Corresponds likeness flush flush fun _ _ => True := by
  apply corresponds_get.bind
  intro machine machine' machines
  rw [machines.sink]
  cases machine'.sink.flush with
  | none => exact corresponds_pure trivial
  | some reason => exact corresponds_fail (.output reason)

theorem corresponds_callHost (function : Native) (arguments arguments' : List Value)
    {line line' : Nat} (lines : likeness.line line line') :
    Corresponds likeness (callHost function arguments line) (callHost function arguments' line')
      (Value.Alike likeness) := by
  apply corresponds_get.bind
  intro machine machine' machines
  refine Corresponds.bind (?_ : Corresponds likeness _ _ fun _ _ => True) ?_
  · intro _ _ _
    refine .ok trivial ⟨machines.store, machines.environment, machines.distances,
      machines.nextIdentity, congrArg (· + 1) machines.hostCalls, machines.sink, machines.host⟩
  · intro _ _ _
    obtain ⟨time, tells, tells'⟩ := machines.host
    rw [tells, tells', machines.hostCalls]
    cases time function machine'.hostCalls with
    | ok amount => exact corresponds_pure (.number amount)
    | error message => exact corresponds_fail (.type _ lines)

theorem corresponds_ofOperator {operator operator' : Token}
    (tokens : likeness.token operator operator') {result : Except TypeFault Value}
    (plain : ∀ value, result = .ok value → value.Alike likeness value) :
    Corresponds likeness (ofOperator operator result) (ofOperator operator' result)
      (Value.Alike likeness) := by
  cases result with
  | ok value => exact corresponds_pure (plain value rfl)
  | error fault => exact corresponds_fail (RuntimeFault.alike_typeAt tokens fault)

/-! ## Lists of expressions and statements -/

section Lists

variable {evaluate evaluate' : Expr → Run Value} {execute execute' : Stmt → Run Flow}

theorem corresponds_goesOn {condition condition' : Option Expr}
    (corresponds : ∀ {value value'}, value.Alike likeness value' →
      Corresponds likeness (evaluate value) (evaluate' value') (Value.Alike likeness))
    (same : Option.Rel (Expr.Alike likeness) condition condition') :
    Corresponds likeness (goesOn evaluate condition) (goesOn evaluate' condition') Eq := by
  cases same with
  | none => exact corresponds_pure rfl
  | some parts => exact (corresponds parts).bind fun values => corresponds_pure values.isTruthy

theorem corresponds_collect {values values' : List Expr}
    (corresponds : ∀ {value value'}, value.Alike likeness value' →
      Corresponds likeness (evaluate value) (evaluate' value') (Value.Alike likeness))
    (same : List.Forall₂ (Expr.Alike likeness) values values') :
    Corresponds likeness (collect evaluate values) (collect evaluate' values')
      (List.Forall₂ (Value.Alike likeness)) := by
  induction same with
  | nil => exact corresponds_pure .nil
  | cons first _ ih =>
      apply (corresponds first).bind
      intro value value' held
      exact ih.bind fun others => corresponds_pure (.cons held others)

theorem corresponds_sequence {body body' : List Stmt}
    (corresponds : ∀ {statement statement'}, statement.Alike likeness statement' →
      Corresponds likeness (execute statement) (execute' statement') (Flow.Alike likeness))
    (same : List.Forall₂ (Stmt.Alike likeness) body body') :
    Corresponds likeness (Flow.sequence execute body) (Flow.sequence execute' body')
      (Flow.Alike likeness) := by
  induction same with
  | nil => exact corresponds_pure .normal
  | cons first _ ih =>
      apply (corresponds first).bind
      intro flow flow' flows
      cases flows with
      | normal => exact ih
      | returned held => exact corresponds_pure (.returned held)

end Lists

end Run

open Run

/-! ## Functions and classes -/

theorem corresponds_declare {declaration declaration' : FunctionDecl} (isInitializer : Bool)
    (same : declaration.Alike likeness declaration') :
    Corresponds likeness (Closure.declare declaration isInitializer)
      (Closure.declare declaration' isInitializer) (Closure.Alike likeness) := by
  apply corresponds_newIdentity.bind
  rintro identity _ rfl
  exact corresponds_get.bind fun machines =>
    corresponds_pure ⟨rfl, same, machines.environment, rfl⟩

theorem corresponds_bindMethod {method method' : Closure} {object object' : Instance}
    (same : method.Alike likeness method') (objects : object.Alike likeness object') :
    Corresponds likeness (method.bind object) (method'.bind object') (Closure.Alike likeness) := by
  have receiver : (Bindings.empty.set "this" (Value.object object)).Related (Value.Alike likeness)
      (Bindings.empty.set "this" (.object object')) :=
    Bindings.related_empty.set "this" (.object objects)
  unfold Closure.bind
  rw [same.environment]
  apply (corresponds_newScope _ receiver).bind
  rintro environment _ rfl
  apply corresponds_newIdentity.bind
  rintro identity _ rfl
  exact corresponds_pure ⟨rfl, same.declaration, rfl, same.isInitializer⟩

theorem parameterBindings_alike {closure closure' : Closure} {arguments arguments' : List Value}
    (same : closure.Alike likeness closure')
    (values : List.Forall₂ (Value.Alike likeness) arguments arguments') :
    (closure.parameterBindings arguments).Related (Value.Alike likeness)
      (closure'.parameterBindings arguments') := by
  have bound {parameters parameters' : List Token}
      (names : List.Forall₂ likeness.token parameters parameters')
      {bindings bindings' : Bindings Value}
      (before : bindings.Related (Value.Alike likeness) bindings') :
      ((parameters.zip arguments).foldl
          (fun bindings entry => bindings.set entry.1.lexeme entry.2) bindings).Related
        (Value.Alike likeness)
        ((parameters'.zip arguments').foldl
          (fun bindings entry => bindings.set entry.1.lexeme entry.2) bindings') := by
    induction names generalizing arguments arguments' bindings bindings' with
    | nil => exact before
    | cons first _ ih =>
        cases values with
        | nil => exact before
        | cons held rest =>
            rw [List.zip_cons_cons, List.zip_cons_cons, List.foldl_cons, List.foldl_cons]
            apply ih rest
            rw [likeness.lexeme first]
            exact before.set _ held
  exact bound same.declaration.parameters Bindings.related_empty

theorem corresponds_result {closure closure' : Closure} {flow flow' : Flow}
    (same : closure.Alike likeness closure') (flows : flow.Alike likeness flow') :
    Corresponds likeness (closure.result flow) (closure'.result flow') (Value.Alike likeness) := by
  unfold Closure.result
  rw [same.isInitializer, same.environment]
  split
  · exact corresponds_get.bind fun machines =>
      corresponds_orFail (machines.store.lookupAt? _ _ _)
        (.undefinedVariable "this" ⟨_, _, same.declaration.name, rfl, rfl⟩)
  · cases flows with
    | normal => exact corresponds_pure .nil
    | returned held => exact corresponds_pure held

theorem corresponds_property {object object' : Instance} {name name' : Token}
    (objects : object.Alike likeness object') (names : likeness.token name name') :
    Corresponds likeness (object.property name) (object'.property name')
      (Value.Alike likeness) := by
  apply corresponds_get.bind
  intro machine machine' machines
  have found := (machines.store.held object'.reference).get? name'.lexeme
  rw [objects.reference, likeness.lexeme names]
  generalize (machine.store.fieldsOf object'.reference).get? name'.lexeme = held,
    (machine'.store.fieldsOf object'.reference).get? name'.lexeme = held' at found
  cases found with
  | some same => exact corresponds_pure same
  | none =>
      apply (corresponds_orFail (objects.cls.method? _) (RuntimeFault.alike_propertyAt names)).bind
      intro method method' methods
      exact (corresponds_bindMethod methods objects).bind fun bound =>
        corresponds_pure (.function bound)

theorem corresponds_setProperty {object object' : Instance} {name name' : Token}
    {value value' : Value} (objects : object.Alike likeness object')
    (names : likeness.token name name') (same : value.Alike likeness value') :
    Corresponds likeness (object.setProperty name value) (object'.setProperty name' value')
      fun _ _ => True := by
  unfold Instance.setProperty
  rw [objects.reference, likeness.lexeme names]
  exact corresponds_modifyStore fun stores => stores.setField _ _ same

/-- The method of a superclass that is found, once the superclass and the object
are known. -/
theorem corresponds_inherited {superclass superclass' : Class} {object object' : Instance}
    {method method' : Token} (above : superclass.Alike likeness superclass')
    (objects : object.Alike likeness object') (names : likeness.token method method') :
    Corresponds likeness
      (do
        let found ← orFail (superclass.method? method.lexeme) (.propertyAt method)
        return Value.function (← found.bind object))
      (do
        let found ← orFail (superclass'.method? method'.lexeme) (.propertyAt method')
        return Value.function (← found.bind object'))
      (Value.Alike likeness) := by
  rw [likeness.lexeme names]
  apply (corresponds_orFail (above.method? _) (RuntimeFault.alike_propertyAt names)).bind
  intro found found' methods
  exact (corresponds_bindMethod methods objects).bind fun bound =>
    corresponds_pure (.function bound)

theorem corresponds_superMethod {reference reference' : Reference} {method method' : Token}
    (use : reference.Alike likeness reference') (names : likeness.token method method') :
    Corresponds likeness (superMethod reference method) (superMethod reference' method')
      (Value.Alike likeness) := by
  apply corresponds_get.bind
  intro machine machine' machines
  rw [machines.distances use.id, machines.environment]
  refine Corresponds.bind (?_ : Corresponds likeness _ _ Eq) ?_
  · apply corresponds_orFail _ (RuntimeFault.alike_variableAt use.name)
    cases machine'.distances.get? reference'.id with
    | none => exact .none
    | some distance => exact .some rfl
  rintro distance _ rfl
  have absent : Corresponds likeness (fail (.variableAt reference.name))
      (fail (.variableAt reference'.name)) (Value.Alike likeness) :=
    corresponds_fail (RuntimeFault.alike_variableAt use.name)
  have unbound : Corresponds likeness (fail (.undefinedVariable "this" reference.name.line))
      (fail (.undefinedVariable "this" reference'.name.line)) (Value.Alike likeness) :=
    corresponds_fail (.undefinedVariable "this" ⟨_, _, use.name, rfl, rfl⟩)
  have above := machines.store.lookupAt? machine'.environment distance "super"
  generalize machine'.environment.lookupAt? machine.store distance "super" = superclass,
    machine'.environment.lookupAt? machine'.store distance "super" = superclass' at above
  cases above with
  | none => exact absent
  | some same =>
      cases same with
      | cls classes =>
          cases distance with
          | zero => exact unbound
          | succ distance =>
              have here := machines.store.lookupAt? machine'.environment distance "this"
              dsimp only
              generalize machine'.environment.lookupAt? machine.store distance "this" = receiver,
                machine'.environment.lookupAt? machine'.store distance "this" = receiver' at here
              cases here with
              | none => exact unbound
              | some same =>
                  cases same with
                  | object objects => exact corresponds_inherited classes objects names
                  | _ => exact unbound
      | _ => exact absent

theorem corresponds_superclassOf {name name' : Token} {superclass superclass' : Expr}
    {value value' : Value} (names : likeness.token name name')
    (parts : superclass.Alike likeness superclass') (same : value.Alike likeness value') :
    Corresponds likeness (superclassOf name superclass value)
      (superclassOf name' superclass' value') (Class.Alike likeness) := by
  have lines : likeness.line (superclass.line?.getD name.line)
      (superclass'.line?.getD name'.line) := by
    have line := parts.line
    generalize superclass.line? = here, superclass'.line? = there at line
    cases line with
    | none => exact ⟨_, _, names, rfl, rfl⟩
    | some found => exact found
  cases same with
  | cls classes => exact corresponds_pure classes
  | _ => exact corresponds_fail (.type _ lines)

theorem corresponds_declareMethods {methods methods' : List FunctionDecl}
    (same : List.Forall₂ (FunctionDecl.Alike likeness) methods methods')
    {before before' : Bindings Closure}
    (known : before.Related (Closure.Alike likeness) before') :
    Corresponds likeness (declareMethods methods before) (declareMethods methods' before')
      (Bindings.Related (Closure.Alike likeness)) := by
  induction same generalizing before before' with
  | nil => exact corresponds_pure known
  | cons first _ ih =>
      unfold declareMethods
      rw [likeness.lexeme first.name]
      exact (corresponds_declare _ first).bind fun closures => ih (known.set _ closures)

theorem corresponds_methodEnvironment (outer : Environment) {superclass superclass' : Option Class}
    (above : Option.Rel (Class.Alike likeness) superclass superclass') :
    Corresponds likeness (methodEnvironment outer superclass) (methodEnvironment outer superclass')
      Eq := by
  cases above with
  | none => exact corresponds_pure rfl
  | some same =>
      exact corresponds_newScope outer (Bindings.related_empty.set "super" (.cls same))

theorem corresponds_declareClass {name name' : Token} {superclass superclass' : Option Class}
    {methods methods' : List FunctionDecl} (names : likeness.token name name')
    (above : Option.Rel (Class.Alike likeness) superclass superclass')
    (same : List.Forall₂ (FunctionDecl.Alike likeness) methods methods') :
    Corresponds likeness (declareClass name superclass methods)
      (declareClass name' superclass' methods') fun _ _ => True := by
  have text := likeness.lexeme names
  apply (corresponds_define text .nil).bind
  intro _ _ _
  apply corresponds_get.bind
  intro machine machine' machines
  rw [machines.environment]
  apply (corresponds_methodEnvironment _ above).bind
  rintro inner _ rfl
  have members := corresponds_declareMethods same Bindings.related_empty
  apply (corresponds_within inner members).bind
  intro closures closures' known
  apply corresponds_newIdentity.bind
  rintro identity _ rfl
  exact corresponds_define text (.cls (Class.alike_extend ⟨rfl, text, known⟩ above))

/-! ## Evaluation -/

/-- What takes no more than a number of steps ends in the same way for trees alike. -/
structure CorrespondsWithin (likeness : Likeness) (steps : Nat) : Prop where
  evaluate : ∀ {value value'}, value.Alike likeness value' →
    Corresponds likeness (evaluate steps value) (evaluate steps value') (Value.Alike likeness)
  execute : ∀ {statement statement'}, statement.Alike likeness statement' →
    Corresponds likeness (execute steps statement) (execute steps statement')
      (Flow.Alike likeness)
  invoke : ∀ {callable callable' arguments arguments' line line'},
    callable.Alike likeness callable' →
    List.Forall₂ (Value.Alike likeness) arguments arguments' → likeness.line line line' →
    Corresponds likeness (invoke steps callable arguments line)
      (invoke steps callable' arguments' line') (Value.Alike likeness)

section Step

variable {steps : Nat}

theorem corresponds_evaluate (below : CorrespondsWithin likeness steps) {value value' : Expr}
    (alike : value.Alike likeness value') :
    Corresponds likeness (evaluate (steps + 1) value) (evaluate (steps + 1) value')
      (Value.Alike likeness) := by
  cases alike with
  | literal literal => exact corresponds_pure (Value.alike_literal literal)
  | grouping parts => exact below.evaluate parts
  | unary token parts =>
      apply (below.evaluate parts).bind
      intro held held' values
      rw [values.unary, likeness.kind token]
      exact corresponds_ofOperator token fun _ => Value.alike_unary
  | binary first token second =>
      apply (below.evaluate first).bind
      intro one one' ones
      apply (below.evaluate second).bind
      intro two two' twos
      rw [ones.binary twos, likeness.kind token]
      exact corresponds_ofOperator token fun _ => Value.alike_binary
  | logical first token second =>
      apply (below.evaluate first).bind
      intro one one' ones
      rw [ones.decides, likeness.kind token]
      split
      · exact corresponds_pure ones
      · exact below.evaluate second
  | «variable» use => exact corresponds_read use
  | assign use parts =>
      apply (below.evaluate parts).bind
      intro held held' values
      exact (corresponds_write use values).bind fun _ => corresponds_pure values
  | @call _ _ paren paren' _ _ first token parts =>
      apply (below.evaluate first).bind
      intro function function' functions
      apply (corresponds_collect below.evaluate parts).bind
      intro values values' given
      have found := functions.callable?
      generalize function.callable? = callable, function'.callable? = callable' at found
      cases found with
      | none => exact corresponds_fail (RuntimeFault.alike_typeAt token _)
      | some same =>
          dsimp only
          rw [given.length_eq, same.arity]
          split
          · exact below.invoke same given ⟨_, _, token, rfl, rfl⟩
          · exact corresponds_fail (RuntimeFault.alike_typeAt token _)
  | get parts token =>
      apply (below.evaluate parts).bind
      intro held held' values
      cases values with
      | object same => exact corresponds_property same token
      | _ => exact corresponds_fail (RuntimeFault.alike_typeAt token _)
  | set first token second =>
      apply (below.evaluate first).bind
      intro held held' values
      cases values with
      | object same =>
          apply (below.evaluate second).bind
          intro stored stored' others
          exact (corresponds_setProperty same token others).bind fun _ => corresponds_pure others
      | _ => exact corresponds_fail (RuntimeFault.alike_typeAt token _)
  | this use => exact corresponds_read use
  | super use token => exact corresponds_superMethod use token

/-- A loop behind its first clause. -/
theorem corresponds_forLoop (below : CorrespondsWithin likeness steps)
    {condition increment : Option Expr} {body statement' : Stmt}
    (alike : (Stmt.forLoop none condition increment body).Alike likeness statement') :
    Corresponds likeness (execute (steps + 1) (.forLoop none condition increment body))
      (execute (steps + 1) statement') (Flow.Alike likeness) := by
  have again := alike
  cases alike with
  | forLoop first second third fourth =>
      cases first
      apply (corresponds_goesOn below.evaluate second).bind
      rintro goesOn _ rfl
      split
      · apply (below.execute fourth).bind
        intro flow flow' flows
        cases flows with
        | returned same => exact corresponds_pure (.returned same)
        | normal =>
            cases third with
            | none => exact below.execute again
            | some step => exact (below.evaluate step).bind fun _ => below.execute again
      · exact corresponds_pure .normal

theorem corresponds_execute (below : CorrespondsWithin likeness steps)
    {statement statement' : Stmt} (alike : statement.Alike likeness statement') :
    Corresponds likeness (execute (steps + 1) statement) (execute (steps + 1) statement')
      (Flow.Alike likeness) := by
  have done : Corresponds likeness (pure Flow.normal) (pure Flow.normal) (Flow.Alike likeness) :=
    corresponds_pure .normal
  cases alike with
  | expression parts => exact (below.evaluate parts).bind fun _ => done
  | print parts =>
      exact (below.evaluate parts).bind fun values => (corresponds_print values).bind fun _ => done
  | var token parts =>
      cases parts with
      | none => exact (corresponds_define (likeness.lexeme token) .nil).bind fun _ => done
      | some initializer =>
          exact (below.evaluate initializer).bind fun values =>
            (corresponds_define (likeness.lexeme token) values).bind fun _ => done
  | block parts =>
      apply corresponds_get.bind
      intro machine machine' machines
      rw [machines.environment]
      apply (corresponds_newScope _ Bindings.related_empty).bind
      rintro inner _ rfl
      exact corresponds_within inner (corresponds_sequence below.execute parts)
  | conditional first second third =>
      apply (below.evaluate first).bind
      intro held held' values
      rw [values.isTruthy]
      split
      · exact below.execute second
      · cases third with
        | none => exact done
        | some alternative => exact below.execute alternative
  | whileLoop first second =>
      apply (below.evaluate first).bind
      intro held held' values
      rw [values.isTruthy]
      split
      · apply (below.execute second).bind
        intro flow flow' flows
        cases flows with
        | normal => exact below.execute (.whileLoop first second)
        | returned same => exact corresponds_pure (.returned same)
      · exact done
  | forLoop first second third fourth =>
      cases first with
      | none => exact corresponds_forLoop below (.forLoop .none second third fourth)
      | some initializer =>
          exact (below.execute initializer).bind fun _ =>
            below.execute (.forLoop .none second third fourth)
  | function parts =>
      apply (corresponds_declare false parts).bind
      intro closure closure' closures
      exact (corresponds_define (likeness.lexeme parts.name) (.function closures)).bind
        fun _ => done
  | returning token parts =>
      cases parts with
      | none => exact corresponds_pure (Flow.Alike.returned .nil)
      | some value =>
          exact (below.evaluate value).bind fun values => corresponds_pure (.returned values)
  | classDecl token first second =>
      cases first with
      | none => exact (corresponds_declareClass token .none second).bind fun _ => done
      | some superclass =>
          apply (below.evaluate superclass).bind
          intro held held' values
          apply (corresponds_superclassOf token superclass values).bind
          intro found found' classes
          exact (corresponds_declareClass token (.some classes) second).bind fun _ => done

theorem corresponds_invoke (below : CorrespondsWithin likeness steps)
    {callable callable' : Callable} {arguments arguments' : List Value} {line line' : Nat}
    (same : callable.Alike likeness callable')
    (given : List.Forall₂ (Value.Alike likeness) arguments arguments')
    (lines : likeness.line line line') :
    Corresponds likeness (invoke (steps + 1) callable arguments line)
      (invoke (steps + 1) callable' arguments' line') (Value.Alike likeness) := by
  cases same with
  | native host => exact corresponds_callHost host _ _ lines
  | @function closure closure' closures =>
      have body := corresponds_sequence below.execute closures.declaration.body
      unfold invoke
      dsimp only
      rw [closures.environment]
      apply (corresponds_newScope _ (parameterBindings_alike closures given)).bind
      rintro inner _ rfl
      exact (corresponds_within inner body).bind fun flows => corresponds_result closures flows
  | @cls found found' classes =>
      apply (corresponds_newInstance classes).bind
      intro object object' objects
      have initializes := classes.initializer?
      generalize found.initializer? = method, found'.initializer? = method' at initializes
      cases initializes with
      | none => exact corresponds_pure (.object objects)
      | some methods =>
          apply (corresponds_bindMethod methods objects).bind
          intro bound bound' closures
          exact (below.invoke (.function closures) given lines).bind fun _ =>
            corresponds_pure (.object objects)

end Step

/-- Trees alike end in the same way on machines alike, however many steps they
take. -/
theorem correspondsWithin (likeness : Likeness) (steps : Nat) :
    CorrespondsWithin likeness steps := by
  induction steps with
  | zero =>
      exact ⟨fun _ => corresponds_throw .outOfSteps, fun _ => corresponds_throw .outOfSteps,
        fun _ _ _ => corresponds_throw .outOfSteps⟩
  | succ steps ih =>
      exact ⟨corresponds_evaluate ih, corresponds_execute ih, corresponds_invoke ih⟩

/-- Programs alike end in the same way on machines alike. -/
theorem corresponds_interpret (steps : Nat) {program program' : List Stmt}
    (alike : List.Forall₂ (Stmt.Alike likeness) program program') :
    Corresponds likeness (interpret steps program) (interpret steps program')
      fun _ _ => True := by
  induction alike with
  | nil => exact corresponds_flush
  | cons first _ ih => exact ((correspondsWithin likeness steps).execute first).bind fun _ => ih

end Lox
