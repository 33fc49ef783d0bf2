import Lox.Proofs.Evaluation.Preservation
import Lox.Proofs.Lexical.Changes

/-!
# Steps side by side

A step of the machine goes with a step of the direct evaluator if both end in the
same way, and leave both sides equal behind. What is said of their results is said
only where they succeed.
-/

namespace Lox.Lexical

variable {survey : Survey} {declared : List String} {before : Coupling}

/-- Both sides end in the same way: they succeed with related results or halt for
the same reason, and what they leave behind has grown from what was there. -/
inductive Coupling.Outcome {α β : Type} (survey : Survey) (declared : List String)
    (before : Coupling) (related : Coupling → α → β → Prop) :
    EStateM.Result Halt Machine α → EStateM.Result Halt State β → Prop where
  | ok {value : α} {value' : β} {after : Coupling}
      (grows : before.Grows survey declared after) (results : related after value value') :
      Outcome survey declared before related (.ok value after.machine) (.ok value' after.state)
  | error {halt : Halt} {after : Coupling} (grows : before.Grows survey declared after) :
      Outcome survey declared before related (.error halt after.machine) (.error halt after.state)

/-- A step of the machine goes with one of the direct evaluator. -/
def Simulates {α β : Type} (survey : Survey) (declared : List String) (before : Coupling)
    (step : Run α) (action : Action β) (related : Coupling → α → β → Prop) : Prop :=
  Coupling.Outcome survey declared before related (step before.machine) (action before.state)

section Together

variable {α β γ δ : Type} {related : Coupling → α → β → Prop} {final : Coupling → γ → δ → Prop}
variable {step : Run α} {action : Action β}

theorem simulates_pure {value : α} {value' : β} (sound : before.Sound survey)
    (results : related before value value') :
    Simulates survey declared before (pure value) (pure value') related :=
  .ok sound.grows results

theorem simulates_throw {halt : Halt} (sound : before.Sound survey) :
    Simulates survey declared before (throw halt : Run α) (throw halt : Action β) related :=
  .error sound.grows

theorem simulates_fail {fault : RuntimeFault} (sound : before.Sound survey) :
    Simulates survey declared before (Run.fail fault : Run α) (fail fault : Action β) related :=
  simulates_throw sound

/-- One step after another. -/
theorem Simulates.bind {next : α → Run γ} {next' : β → Action δ}
    (front : Simulates survey declared before step action related)
    (back : ∀ after value value', before.Grows survey declared after →
      related after value value' →
      Simulates survey declared after (next value) (next' value') final) :
    Simulates survey declared before (step >>= next) (action >>= next') final := by
  unfold Simulates at *
  change Coupling.Outcome survey declared before final
    (EStateM.bind step next before.machine) (EStateM.bind action next' before.state)
  unfold EStateM.bind
  generalize step before.machine = result, action before.state = result' at front
  cases front with
  | error grows => exact .error grows
  | ok grows results =>
      have rest := back _ _ _ grows results
      dsimp only
      generalize next _ _ = last, next' _ _ = last' at rest
      cases rest with
      | error growsOn => exact .error (grows.trans growsOn)
      | ok growsOn results => exact .ok (grows.trans growsOn) results

theorem Simulates.imp {weaker : Coupling → α → β → Prop}
    (simulates : Simulates survey declared before step action related)
    (weaken : ∀ after value value', step before.machine = .ok value after.machine →
      before.Grows survey declared after → related after value value' →
      weaker after value value') :
    Simulates survey declared before step action weaker := by
  unfold Simulates at *
  generalize ran : step before.machine = result, action before.state = result' at simulates
  cases simulates with
  | error grows => exact .error grows
  | ok grows results => exact .ok grows (weaken _ _ _ ran grows results)

/-- The result of the direct evaluator may be looked at in another way. -/
theorem Simulates.map {next : β → δ} {final : Coupling → α → δ → Prop}
    (simulates : Simulates survey declared before step action related)
    (results : ∀ after value value', before.Grows survey declared after →
      related after value value' → final after value (next value')) :
    Simulates survey declared before step (action >>= fun value' => pure (next value')) final := by
  unfold Simulates at *
  change Coupling.Outcome survey declared before final (step before.machine)
    (EStateM.bind action _ before.state)
  unfold EStateM.bind
  generalize step before.machine = result, action before.state = result' at simulates
  cases simulates with
  | error grows => exact .error grows
  | ok grows held => exact .ok grows (results _ _ _ grows held)

/-- More names may be declared. -/
theorem Simulates.weaken {more : List String}
    (simulates : Simulates survey declared before step action related)
    (subset : declared ⊆ more) : Simulates survey more before step action related := by
  unfold Simulates at *
  generalize step before.machine = result, action before.state = result' at simulates
  cases simulates with
  | error grows => exact .error (grows.weaken subset)
  | ok grows results => exact .ok (grows.weaken subset) results

/-- A look at the machine. -/
theorem simulates_look {next : Machine → Run α}
    (back : Simulates survey declared before (next before.machine) action related) :
    Simulates survey declared before (get >>= next) action related := back

/-- A look at the state of the direct evaluator. -/
theorem simulates_look' {next : State → Action β}
    (back : Simulates survey declared before step (next before.state) related) :
    Simulates survey declared before step (get >>= next) related := back

/-- A step of the direct evaluator that the machine does not take. -/
theorem simulates_lead {next : β → Action δ} {next' : Run γ} {value : β} {after : Coupling}
    (ran : action before.state = .ok value after.state) (same : after.machine = before.machine)
    (grows : before.Grows survey declared after)
    (back : Simulates survey declared after next' (next value) final) :
    Simulates survey declared before next' (action >>= next) final := by
  unfold Simulates at *
  change Coupling.Outcome survey declared before final (next' before.machine)
    (EStateM.bind action next before.state)
  unfold EStateM.bind
  rw [ran]
  rw [same] at back
  dsimp only
  generalize next' _ = result, next _ _ = result' at back
  cases back with
  | error growsOn => exact .error (grows.trans growsOn)
  | ok growsOn results => exact .ok (grows.trans growsOn) results

theorem simulates_orFail {found : Option α} {found' : Option β} {fault : RuntimeFault}
    (sound : before.Sound survey) (both : Option.Rel (related before) found found') :
    Simulates survey declared before (Run.orFail found fault) (orFail found' fault) related := by
  cases both with
  | none => exact simulates_fail sound
  | some results => exact simulates_pure sound results

end Together

/-! ## Values -/

/-- A held value and what is left of it without environments. -/
def Coupling.Same (survey : Survey) (coupling : Coupling) (value value' : Value) : Prop :=
  value' = value.erased ∧ coupling.Holds survey value

theorem simulates_ofOperator (sound : before.Sound survey) (operator : Token)
    {outcome outcome' : Except TypeFault Value} (same : outcome' = outcome.map Value.erased)
    (plain : ∀ value, outcome = .ok value → value.IsPlain) :
    Simulates survey declared before (Run.ofOperator operator outcome)
      (ofOperator operator outcome') (Coupling.Same survey) := by
  subst same
  cases outcome with
  | error fault => exact simulates_fail sound
  | ok value => exact simulates_pure sound ⟨rfl, holds_of_isPlain (plain value rfl)⟩

/-! ## Host and output -/

theorem simulates_print (sound : before.Sound survey) {value value' : Value}
    (same : before.Same survey value value') :
    Simulates survey declared before (Run.print value) (print value') fun _ _ _ => True := by
  obtain ⟨rfl, -⟩ := same
  unfold Simulates Run.print print
  rw [Value.pieces_erased, sound.sink]
  cases before.machine.sink.writeAll (value.pieces ++ ["\n"]) with
  | mk refusal sink =>
      have grows : before.Grows survey declared (before.counted _ _ sink sink) :=
        sound.counted sound.hostCalls rfl
      cases refusal with
      | none => exact .ok grows trivial
      | some reason => exact .error grows

theorem simulates_flush (sound : before.Sound survey) :
    Simulates survey declared before Run.flush flush fun _ _ _ => True := by
  apply simulates_look
  apply simulates_look'
  rw [sound.sink]
  cases before.machine.sink.flush with
  | none => exact simulates_pure sound trivial
  | some reason => exact simulates_fail sound

theorem simulates_callHost (sound : before.Sound survey) (function : Native)
    (arguments arguments' : List Value) (line : Nat) :
    Simulates survey declared before (Run.callHost function arguments line)
      (callHost function arguments' line) (Coupling.Same survey) := by
  apply simulates_look
  apply simulates_look'
  have grows : before.Grows survey declared (before.counted (before.machine.hostCalls + 1)
      (before.state.hostCalls + 1) before.machine.sink before.state.sink) :=
    sound.counted (congrArg (· + 1) sound.hostCalls) sound.sink
  have counted : Simulates survey declared before
      (set { before.machine with hostCalls := before.machine.hostCalls + 1 } : Run PUnit)
      (set { before.state with hostCalls := before.state.hostCalls + 1 } : Action PUnit)
      fun _ _ _ => True := .ok grows trivial
  apply counted.bind
  intro after _ _ growsOn _
  rw [sound.host, sound.hostCalls, sound.blind _ _ arguments' arguments]
  cases answer : before.machine.host function before.machine.hostCalls arguments with
  | error message => exact simulates_fail growsOn.sound
  | ok value =>
      have plain := sound.plain _ _ _ _ answer
      exact simulates_pure growsOn.sound
        ⟨(erased_of_isPlain plain).symm, holds_of_isPlain plain⟩

/-! ## Functions and instances -/

theorem simulates_newInstance (sound : before.Sound survey) (cls : Class) :
    Simulates survey declared before (Run.newInstance cls) (newInstance cls.erased)
      fun _ object object' => object' = object.erased ∧ object.cls = cls := by
  have grows : before.Grows survey declared before.instantiated := sound.instantiated
  have same : (⟨⟨before.state.fields.size⟩, cls.erased⟩ : Instance) =
      Instance.erased ⟨⟨before.machine.store.fields.size⟩, cls⟩ := by
    rw [sound.fields, Array.size_map]
    rfl
  exact .ok grows ⟨same, rfl⟩

theorem simulates_setProperty (sound : before.Sound survey) (object : Instance) (name : Token)
    {value value' : Value} (same : before.Same survey value value') :
    Simulates survey declared before (object.setProperty name value)
      (setProperty object.erased name value') fun _ _ _ => True := by
  obtain ⟨rfl, held⟩ := same
  have grows : before.Grows survey declared
      (before.withField object.reference name.lexeme value) := sound.withField _ _ held
  exact .ok grows trivial

/-- An identity with names that are captured under it. -/
theorem simulates_capture (sound : before.Sound survey) (names : Names) :
    Simulates survey declared before Run.newIdentity (capture names)
      fun after identity identity' => identity' = identity ∧
        identity < after.machine.nextIdentity ∧
        ∀ closure : Closure, closure.identity = identity →
          after.state.namesOf closure = names := by
  have grows : before.Grows survey declared (before.capturing names) := sound.capturing names
  exact .ok grows ⟨sound.captured, Nat.lt_succ_self _,
    fun closure own => sound.namesOf_capturing names own⟩

/-- A function gets the environment and the names of the point where it is
declared. -/
theorem simulates_declare (sound : before.Sound survey) (names : Names)
    (declaration : FunctionDecl) (isInitializer : Bool) :
    Simulates survey declared before (Closure.declare declaration isInitializer)
      (function names declaration isInitializer) fun after closure closure' =>
        closure' = closure.erased ∧ closure.declaration = declaration ∧
          closure.environment = after.machine.environment ∧
          closure.isInitializer = isInitializer ∧
          closure.identity < after.machine.nextIdentity ∧
          after.state.namesOf closure = names := by
  apply (simulates_capture sound names).bind
  rintro after identity _ grows ⟨rfl, known, captured⟩
  apply simulates_look
  exact simulates_pure grows.sound ⟨rfl, rfl, rfl, rfl, known, captured _ rfl⟩

/-! ## Names -/

variable {scopes : List (Bindings Readiness)} {names : Names}

/-- A name is read that has the distance of the nearest scope that has it. -/
theorem simulates_read (sound : before.Sound survey)
    (matching : before.Matches scopes before.machine.environment names) {reference : Reference}
    (noted : before.machine.distances.get? reference.id =
      nearest scopes reference.name.lexeme)
    (settled : ∀ distance scope, nearest scopes reference.name.lexeme = some distance →
      scopes[distance]? = some scope → scope.get? reference.name.lexeme = some .ready) :
    Simulates survey declared before (Run.read reference) (read names reference)
      (Coupling.Same survey) := by
  apply simulates_look
  apply simulates_look'
  rw [noted]
  cases found : nearest scopes reference.name.lexeme with
  | none =>
      rw [matching.absent found]
      apply simulates_orFail sound
      dsimp only
      rw [lookup?_globalEnvironment, sound.global, Bindings.get?_map]
      cases stored : (before.machine.store.scope globalScope).get? reference.name.lexeme with
      | none => exact .none
      | some value => exact .some ⟨rfl, sound.stored _ _ _ stored⟩
  | some distance =>
      obtain ⟨scope, cell, there, placed, held⟩ := matching.present found
      obtain ⟨again, same, bound⟩ := matching.ready found fun scope => settled distance scope found
      cases there.symm.trans same
      obtain ⟨value, stored⟩ := Option.isSome_iff_exists.mp bound
      have looked : before.machine.environment.lookupAt? before.machine.store distance
          reference.name.lexeme = some value := Option.bind_eq_some_iff.mpr ⟨scope, there, stored⟩
      rw [held]
      apply simulates_orFail sound
      dsimp only
      rw [looked, sound.cell _ _ _ _ placed stored]
      exact .some ⟨rfl, sound.stored _ _ _ stored⟩

/-- A name is assigned to that has the distance of the nearest scope that has it. -/
theorem simulates_write (sound : before.Sound survey)
    (matching : before.Matches scopes before.machine.environment names) {reference : Reference}
    (ordinary : reference.name.IsOrdinary)
    (noted : before.machine.distances.get? reference.id =
      nearest scopes reference.name.lexeme)
    {value value' : Value} (same : before.Same survey value value') :
    Simulates survey declared before (Run.write reference value) (write names reference value')
      fun _ _ _ => True := by
  obtain ⟨rfl, held⟩ := same
  cases found : nearest scopes reference.name.lexeme with
  | none =>
      have target : Run.target? reference before.machine =
          if (before.machine.store.scope globalScope).contains reference.name.lexeme then
            some globalScope else none := by
        unfold Run.target?
        rw [noted, found]
        exact binder?_globalEnvironment ..
      have contains : before.state.globals.contains reference.name.lexeme =
          (before.machine.store.scope globalScope).contains reference.name.lexeme := by
        unfold Bindings.contains
        rw [sound.global, Bindings.get?_map, Option.isSome_map]
      apply simulates_look
      unfold write
      rw [matching.absent found, target]
      apply simulates_look'
      rw [contains]
      split
      · have grows : before.Grows survey declared
            (before.assignedGlobal reference.name.lexeme value) :=
          sound.assignedGlobal ordinary (held.grow (before.extends_assignedGlobal ordinary value))
        exact .ok grows trivial
      · exact simulates_fail sound
  | some distance =>
      obtain ⟨scope, cell, there, placed, owned⟩ := matching.present found
      have target : Run.target? reference before.machine = some scope := by
        unfold Run.target?
        rw [noted, found]
        exact there
      have grows : before.Grows survey declared
          (before.assigned scope reference.name.lexeme cell value) :=
        sound.assigned placed ordinary
          (held.grow (before.extends_assigned scope ordinary cell value))
      apply simulates_look
      unfold write
      rw [owned, target]
      exact .ok grows trivial

/-- A name of the innermost scope is ready once it has its value. -/
theorem matches_assigned {scope : Bindings Readiness} {reference : ScopeRef} {outer : Environment}
    {cells : Bindings Nat} {name : String}
    (matching : before.Matches (scope :: scopes) (reference :: outer) (some cells))
    (inside : scope.contains name = true) (ordinary : IsOrdinaryName name) (cell : Nat)
    (value : Value) :
    (before.assigned reference name cell value).Matches (declaring [name] (scope :: scopes))
      (reference :: outer) (some cells) := by
  have growth := before.extends_assigned reference ordinary cell value
  cases matching with
  | inside apart allocated bound own others around =>
      rw [declaring_single]
      refine .inside apart (Nat.lt_of_lt_of_le allocated growth.store.size) ?bound ?own ?others
        (around.grow growth)
      case bound =>
        intro text ready
        rw [Bindings.get?_set] at ready
        split at ready
        · next here =>
            have held : ((before.machine.store.define reference name value).scope
                reference).contains text = true := by
              rw [Store.scope_define, if_pos ⟨rfl, allocated⟩, Bindings.contains_set, here]
              simp
            exact held
        · exact growth.store.bound reference text (bound text ready)
      case own =>
        intro text contained
        rw [Bindings.contains_set, Bool.or_eq_true, decide_eq_true_eq] at contained
        rcases contained with rfl | earlier
        · exact own name inside
        · exact own text earlier
      case others =>
        intro text absent
        rw [Bindings.contains_set, Bool.or_eq_false_iff] at absent
        exact others text absent.2

/-- A declared name gets its value. -/
theorem simulates_define (sound : before.Sound survey)
    (matching : before.Matches scopes before.machine.environment names) {name : String}
    (ordinary : IsOrdinaryName name)
    (inside : ∀ scope outer, scopes = scope :: outer → scope.contains name = true)
    {value value' : Value} (same : value' = value.erased)
    (held : ∀ after : Coupling, before.Extends after →
      after.Matches (declaring [name] scopes) before.machine.environment names →
      after.Holds survey value) :
    Simulates survey declared before (Run.define name value) (define names name value')
      fun after _ _ => after.Matches (declaring [name] scopes) after.machine.environment names := by
  subst same
  generalize around : before.machine.environment = environment at matching held
  cases matching with
  | outside =>
      have growth := before.extends_assignedGlobal ordinary value
      have grows : before.Grows survey declared (before.assignedGlobal name value) :=
        sound.assignedGlobal ordinary (held _ growth .outside)
      unfold Simulates
      rw [Run.define_of_inside name value around]
      refine .ok grows ?_
      rw [grows.environment, around]
      exact .outside
  | @inside scope scopes reference outer earlier cells apart allocated bound own others around_ =>
      have here := inside scope scopes rfl
      obtain ⟨cell, placed, owned⟩ := own name here
      have growth := before.extends_assigned reference ordinary cell value
      have matchingNow : (before.assigned reference name cell value).Matches
          (declaring [name] (scope :: scopes)) (reference :: outer) (some cells) :=
        matches_assigned (.inside apart allocated bound own others around_) here ordinary cell value
      have grows : before.Grows survey declared (before.assigned reference name cell value) :=
        sound.assigned placed ordinary (held _ growth matchingNow)
      have found : Names.cell? (some cells) name = some cell := owned
      unfold Simulates define
      rw [Run.define_of_inside name value around, found]
      refine .ok grows ?_
      rw [grows.environment, around]
      exact matchingNow

end Lox.Lexical
