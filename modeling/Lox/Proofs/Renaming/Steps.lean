import Lox.Proofs.Renaming.Machines

/-!
# Steps of renamed programs

What one step does on a machine, the renamed step does on the machine of the renamed
program: both end in the same way, and the layout of the stores has only grown. Steps
that are put together from such steps are such steps again.
-/

namespace Lox

variable {respelling : Respelling} {layout : Layout} {marks : Marks}

/-- Two runs end in the same way, the second one of a renamed program: both succeed with
related results or both halt for the same reason. -/
inductive Run.Mirrored {α β : Type} (respelling : Respelling) (layout : Layout) (marks : Marks)
    (related : Layout → α → β → Prop) :
    EStateM.Result Halt Machine α → EStateM.Result Halt Machine β → Prop where
  | ok {value : α} {value' : β} {after after' : Machine} {grown : Layout}
      (grows : layout <+: grown) (results : related grown value value')
      (machines : after.Respelled respelling grown marks after') :
      Run.Mirrored respelling layout marks related (.ok value after) (.ok value' after')
  | error {halt halt' : Halt} {after after' : Machine} {grown : Layout}
      (grows : layout <+: grown) (halts : halt.Respelled respelling halt')
      (machines : after.Respelled respelling grown marks after') :
      Run.Mirrored respelling layout marks related (.error halt after) (.error halt' after')

/-- Two steps at a point of a program and of a renamed one end in the same way. -/
def Run.Mirrors {α β : Type} (respelling : Respelling) (layout : Layout) (marks : Marks)
    (step : Run α) (step' : Run β) (related : Layout → α → β → Prop) : Prop :=
  ∀ ⦃machine machine' : Machine⦄, machine.Respelled respelling layout marks machine' →
    Run.Mirrored respelling layout marks related (step machine) (step' machine')

namespace Run

variable {α β γ δ : Type} {related : Layout → α → β → Prop}

theorem Mirrored.later {grown : Layout} (grows : layout <+: grown)
    {result : EStateM.Result Halt Machine α} {result' : EStateM.Result Halt Machine β}
    (mirrored : Mirrored respelling grown marks related result result') :
    Mirrored respelling layout marks related result result' := by
  cases mirrored with
  | ok further results machines => exact .ok (grows.trans further) results machines
  | error further halts machines => exact .error (grows.trans further) halts machines

/-! ## Steps put together -/

theorem mirrors_pure {value : α} {value' : β} (holds : related layout value value') :
    Mirrors respelling layout marks (pure value) (pure value') related :=
  fun _ _ machines => .ok List.prefix_rfl holds machines

theorem mirrors_throw {halt halt' : Halt} (halts : halt.Respelled respelling halt') :
    Mirrors respelling layout marks (throw halt : Run α) (throw halt' : Run β) related :=
  fun _ _ machines => .error List.prefix_rfl halts machines

theorem mirrors_fail {fault fault' : RuntimeFault} (faults : fault.Respelled respelling fault') :
    Mirrors respelling layout marks (fail fault : Run α) (fail fault' : Run β) related :=
  mirrors_throw (.fault faults)

theorem mirrors_get : Mirrors respelling layout marks (get : Run Machine) (get : Run Machine)
    fun grown => Machine.Respelled respelling grown marks :=
  fun _ _ machines => .ok List.prefix_rfl machines machines

theorem Mirrors.bind {step : Run α} {step' : Run β} {next : α → Run γ} {next' : β → Run δ}
    {final : Layout → γ → δ → Prop}
    (front : Mirrors respelling layout marks step step' related)
    (back : ∀ {grown value value'}, layout <+: grown → related grown value value' →
      Mirrors respelling grown marks (next value) (next' value') final) :
    Mirrors respelling layout marks (step >>= next) (step' >>= next') final := by
  intro machine machine' machines
  have first := front machines
  change Mirrored respelling layout marks final (EStateM.bind step next machine)
    (EStateM.bind step' next' machine')
  unfold EStateM.bind
  generalize step machine = result, step' machine' = result' at first
  cases first with
  | ok grows results behind => exact (back grows results behind).later grows
  | error grows halts behind => exact .error grows halts behind

/-- Steps inside other environments, in front of which there are other scopes. -/
theorem mirrors_within {environment : Environment} {inside : Marks} {step : Run α} {step' : Run β}
    (around : layout.Around environment inside)
    (mirrors : Mirrors respelling layout inside step step' related) :
    Mirrors respelling layout marks (within environment step) (within environment step')
      related := by
  intro machine machine' machines
  have ran := mirrors (machines.withEnvironment around)
  unfold within
  rw [machines.environment]
  generalize step { machine with environment := environment } = result,
    step' { machine' with environment := environment } = result' at ran
  cases ran with
  | ok grows results behind =>
      exact .ok grows results (behind.withEnvironment (machines.around.grow grows))
  | error grows halts behind =>
      exact .error grows halts (behind.withEnvironment (machines.around.grow grows))

theorem mirrors_orFail {found : Option α} {found' : Option β} {fault fault' : RuntimeFault}
    (same : Option.Rel (related layout) found found') (faults : fault.Respelled respelling fault') :
    Mirrors respelling layout marks (orFail found fault) (orFail found' fault') related := by
  cases same with
  | none => exact mirrors_fail faults
  | some holds => exact mirrors_pure holds

/-! ## Single steps -/

theorem mirrors_modifyStore {change change' : Store → Store}
    (changes : ∀ {store store' : Store},
      store.Akin (respelling.NamesIn layout) (respelling.kinship layout) store' →
        (change store).Akin (respelling.NamesIn layout) (respelling.kinship layout)
          (change' store'))
    (keeps : ∀ store, (change store).scopes.size = store.scopes.size) :
    Mirrors respelling layout marks (modifyStore change) (modifyStore change') fun _ _ _ => True :=
  fun _ _ machines => .ok List.prefix_rfl trivial
    (machines.withStore (changes machines.store) (keeps _))

theorem mirrors_newIdentity :
    Mirrors respelling layout marks newIdentity newIdentity fun _ => Eq := by
  intro machine machine' machines
  refine .ok List.prefix_rfl machines.nextIdentity.symm { machines with nextIdentity := ?_ }
  exact congrArg (· + 1) machines.nextIdentity

/-- A new scope in which the name changes or not, as the bindings in it do. -/
theorem mirrors_newScope {outer : Environment} {inside : Marks} (mark : Bool)
    (around : layout.Around outer inside) {bindings bindings' : Bindings Value}
    (paired : bindings.Paired (respelling.Names mark) (respelling.Values layout) bindings') :
    Mirrors respelling layout marks (newScope outer bindings) (newScope outer bindings')
      fun grown inner inner' => inner = inner' ∧ grown.Around inner (mark :: inside) := by
  intro machine machine' machines
  refine .ok (List.prefix_append _ [mark]) ⟨?_, ?_⟩ (machines.addScope paired)
  · exact congrArg (fun size => (⟨size⟩ : ScopeRef) :: outer) machines.store.scopes
  · rw [machines.size]
    exact around.enter mark

theorem mirrors_newInstance {cls cls' : Class} (same : cls.Akin (respelling.kinship layout) cls') :
    Mirrors respelling layout marks (newInstance cls) (newInstance cls')
      fun grown => Instance.Akin (respelling.kinship grown) := by
  intro machine machine' machines
  refine .ok List.prefix_rfl ⟨?_, same⟩ (machines.withStore machines.store.addInstance rfl)
  exact congrArg InstanceRef.mk machines.store.fields

/-- Binding a name in the innermost scope. -/
theorem mirrors_define {name name' : String} {value value' : Value}
    (names : respelling.Names marks.here name name')
    (same : respelling.Values layout value value') :
    Mirrors respelling layout marks (define name value) (define name' value')
      fun _ _ _ => True := by
  rintro ⟨store, environment, distances, nextIdentity, hostCalls, sink, host⟩
    ⟨store', environment', distances', nextIdentity', hostCalls', sink', host'⟩ machines
  cases machines.environment
  cases environment with
  | nil => exact .ok List.prefix_rfl trivial machines
  | cons scope outer =>
      have here : layout.changes scope = marks.here :=
        Layout.changes_of_getElem? (machines.around 0 scope rfl)
      have paired : respelling.NamesIn layout scope name name' := by
        unfold Respelling.NamesIn
        rw [here]
        exact names
      exact .ok List.prefix_rfl trivial (machines.withStore
        (machines.store.define scope (respelling.oneToOne_names _) paired same)
        (Store.size_scopes_define ..))

section Uses

variable {reference reference' : Reference} {machine machine' : Machine}
variable (use : reference.Respelled respelling marks reference')
include use

/-- In the scope at its distance a use has the name that stands for it there. -/
theorem namesIn_distance (machines : machine.Respelled respelling layout marks machine')
    {distance : Nat} (noted : machine.distances.get? reference.id = some distance)
    {scope : ScopeRef} (found : machine.environment.scopeAt? distance = some scope) :
    respelling.NamesIn layout scope reference.name.lexeme reference'.name.lexeme := by
  have name := use.name
  unfold Respelling.bound at name
  rw [← machines.noted, noted] at name
  unfold Respelling.NamesIn
  rw [machines.around.changes found]
  exact name

/-- A use among the globals keeps its name. -/
theorem name_global (machines : machine.Respelled respelling layout marks machine')
    (unnoted : machine.distances.get? reference.id = none) :
    reference'.name.lexeme = reference.name.lexeme := by
  have name := use.name.2
  unfold Respelling.bound at name
  rw [← machines.noted, unnoted] at name
  simpa using name

omit use in
theorem namesIn_globals (machines : machine.Respelled respelling layout marks machine')
    (name : String) : respelling.NamesIn layout globalScope name name := by
  unfold Respelling.NamesIn
  rw [Layout.changes_of_getElem? machines.globals]
  exact Respelling.names_false name

theorem mirrors_read :
    Mirrors respelling layout marks (read reference) (read reference') respelling.Values := by
  apply mirrors_get.bind
  intro grown machine machine' grows machines
  apply mirrors_orFail _ use.variableAt
  rw [machines.distances, machines.environment, use.id]
  split
  · next distance noted =>
      exact machines.store.lookupAt? _ distance fun _ found =>
        namesIn_distance use machines noted found
  · next unnoted =>
      rw [name_global use machines unnoted, lookup?_globalEnvironment, lookup?_globalEnvironment]
      exact (machines.store.bound globalScope).get? (namesIn_globals machines _)

/-- A use assigns to the same scope, where it has the name that stands for it there. -/
theorem target?_respelled (machines : machine.Respelled respelling layout marks machine') :
    Option.Rel (fun scope scope' => scope = scope' ∧
        respelling.NamesIn layout scope reference.name.lexeme reference'.name.lexeme)
      (target? reference machine) (target? reference' machine') := by
  unfold target?
  rw [machines.distances, machines.environment, use.id]
  split
  · next distance noted =>
      cases found : machine.environment.scopeAt? distance with
      | none => exact .none
      | some scope => exact .some ⟨rfl, namesIn_distance use machines noted found⟩
  · next unnoted =>
      have names := namesIn_globals machines reference.name.lexeme
      rw [name_global use machines unnoted, binder?_globalEnvironment, binder?_globalEnvironment,
        (machines.store.bound globalScope).contains names]
      split
      · exact .some ⟨rfl, names⟩
      · exact .none

theorem mirrors_write {value value' : Value} (same : respelling.Values layout value value') :
    Mirrors respelling layout marks (write reference value) (write reference' value')
      fun _ _ _ => True := by
  apply mirrors_get.bind
  intro grown machine machine' grows machines
  have found : Mirrors respelling grown marks
      (orFail (target? reference machine) (.variableAt reference.name))
      (orFail (target? reference' machine') (.variableAt reference'.name))
      fun grown scope scope' => scope = scope' ∧
        respelling.NamesIn grown scope reference.name.lexeme reference'.name.lexeme :=
    mirrors_orFail (target?_respelled use machines) use.variableAt
  apply found.bind
  rintro further scope _ later ⟨rfl, names⟩
  have held := same.widen (respelling.within_kinship (grows.trans later))
  exact mirrors_modifyStore
    (fun stores => stores.define scope (respelling.oneToOne_names _) names held)
    fun _ => Store.size_scopes_define ..

end Uses

theorem mirrors_print {value value' : Value} (same : respelling.Values layout value value') :
    Mirrors respelling layout marks (print value) (print value') fun _ _ _ => True := by
  intro machine machine' machines
  unfold print
  rw [same.pieces, machines.sink]
  rcases machine.sink.writeAll (value'.pieces ++ ["\n"]) with ⟨refusal, sink⟩
  have left : Machine.Respelled respelling layout marks { machine with sink := sink }
      { machine' with sink := sink } := { machines with sink := rfl }
  cases refusal with
  | none => exact .ok List.prefix_rfl trivial left
  | some reason => exact .error List.prefix_rfl (.fault (.same _)) left

theorem mirrors_flush :
    Mirrors respelling layout marks flush flush fun _ _ _ => True := by
  apply mirrors_get.bind
  intro grown machine machine' grows machines
  rw [machines.sink]
  cases machine.sink.flush with
  | none => exact mirrors_pure trivial
  | some reason => exact mirrors_fail (.same _)

theorem mirrors_callHost (function : Native) (arguments arguments' : List Value) (line : Nat) :
    Mirrors respelling layout marks (callHost function arguments line)
      (callHost function arguments' line) respelling.Values := by
  apply mirrors_get.bind
  intro grown machine machine' grows machines
  refine Mirrors.bind (?_ : Mirrors respelling grown marks _ _ fun _ _ _ => True) ?_
  · intro _ _ _
    exact .ok List.prefix_rfl trivial
      { machines with hostCalls := congrArg (· + 1) machines.hostCalls }
  · intro _ _ _ _ _
    obtain ⟨time, tells, tells'⟩ := machines.host
    rw [tells, tells', machines.hostCalls]
    cases time function machine.hostCalls with
    | ok amount => exact mirrors_pure (.number amount)
    | error message => exact mirrors_fail (.same _)

theorem mirrors_ofOperator (operator : Token) {result : Except TypeFault Value}
    (plain : ∀ value, result = .ok value → ∀ kinship, value.Akin kinship value) :
    Mirrors respelling layout marks (ofOperator operator result) (ofOperator operator result)
      respelling.Values := by
  cases result with
  | ok value => exact mirrors_pure (plain value rfl _)
  | error fault => exact mirrors_fail (.same _)

/-! ## Lists of expressions and statements -/

section Lists

variable {evaluate : Expr → Run Value} {execute : Stmt → Run Flow}

theorem mirrors_goesOn {condition : Option Expr}
    (asked : ∀ value ∈ condition, true ∈ marks → value.Apart respelling)
    (mirrors : ∀ {value}, (true ∈ marks → value.Apart respelling) →
      Mirrors respelling layout marks (evaluate value) (evaluate (value.rename respelling marks))
        respelling.Values) :
    Mirrors respelling layout marks (goesOn evaluate condition)
      (goesOn evaluate (condition.map (Expr.rename respelling marks))) fun _ => Eq := by
  cases condition with
  | none => exact mirrors_pure rfl
  | some value =>
      exact (mirrors (asked value rfl)).bind fun _ values => mirrors_pure values.isTruthy

theorem mirrors_collect {values : List Expr}
    (apart : true ∈ marks → Expr.ListApart respelling values)
    (mirrors : ∀ {layout value}, (true ∈ marks → value.Apart respelling) →
      Mirrors respelling layout marks (evaluate value) (evaluate (value.rename respelling marks))
        respelling.Values) :
    Mirrors respelling layout marks (collect evaluate values)
      (collect evaluate (Expr.listRename respelling marks values))
      fun grown => List.Forall₂ (respelling.Values grown) := by
  induction values generalizing layout with
  | nil => exact mirrors_pure .nil
  | cons first rest ih =>
      apply (mirrors fun marked => (apart marked).1).bind
      intro grown value value' grows held
      apply (ih fun marked => (apart marked).2).bind
      intro further others others' later rest
      exact mirrors_pure (.cons (held.widen (respelling.within_kinship later)) rest)

theorem mirrors_sequence {body body' : List Stmt}
    (parts : Stmt.ListRenames respelling respelling.apart marks body body')
    (mirrors : ∀ {layout statement statement'},
      statement.Renames respelling respelling.apart marks statement' →
      Mirrors respelling layout marks (execute statement) (execute statement')
        fun grown => Flow.Akin (respelling.kinship grown)) :
    Mirrors respelling layout marks (Flow.sequence execute body) (Flow.sequence execute body')
      fun grown => Flow.Akin (respelling.kinship grown) := by
  induction body generalizing layout body' with
  | nil =>
      cases parts
      exact mirrors_pure .normal
  | cons first rest ih =>
      cases parts with
      | cons head tail =>
          apply (mirrors head).bind
          intro grown flow flow' grows flows
          cases flows with
          | normal => exact ih tail
          | returned held => exact mirrors_pure (.returned held)

end Lists

end Run

end Lox
