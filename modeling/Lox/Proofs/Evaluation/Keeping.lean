import Lox.Proofs.Evaluation.Survey

/-!
# What every step of a run keeps

A sound machine holds no function that is not located. Steps of a run keep it
sound, let its store grow and go back to the environment in which they started,
whether they succeed or halt. What a result is like is said only of a step that
succeeds.
-/

namespace Lox

variable {survey : Survey} {before middle after : Machine}

/-! ## Sound machines -/

/-- A machine with nothing in its store that is not located. Neither does its
host hand out functions. -/
structure Machine.Sound (survey : Survey) (machine : Machine) : Prop where
  globals : 0 < machine.store.scopes.size
  stored : ∀ reference name value, (machine.store.scope reference).get? name = some value →
    survey.LocatedValue machine.store value
  fielded : ∀ reference name value, (machine.store.fieldsOf reference).get? name = some value →
    survey.LocatedValue machine.store value
  host : ∀ function count arguments value, machine.host function count arguments = .ok value →
    ∀ store, survey.LocatedValue store value

/-- From one machine to another one on the way through a run. -/
structure Machine.Grows (survey : Survey) (before after : Machine) : Prop where
  sound : after.Sound survey
  store : before.store.Extends after.store
  environment : after.environment = before.environment
  distances : after.distances = before.distances
  host : after.host = before.host

namespace Machine

theorem Sound.grows (sound : before.Sound survey) : before.Grows survey before :=
  ⟨sound, .refl _, rfl, rfl, rfl⟩

theorem Grows.trans (front : before.Grows survey middle) (back : middle.Grows survey after) :
    before.Grows survey after := by
  constructor
  · exact back.sound
  · exact front.store.trans back.store
  · exact back.environment.trans front.environment
  · exact back.distances.trans front.distances
  · exact back.host.trans front.host

/-- A machine fits the scopes around a visit if its environment does. -/
def Fits (machine : Machine) (scopes : List (Bindings Readiness)) (loose : List (List String)) :
    Prop :=
  Environment.Fits machine.store scopes loose machine.environment

theorem Fits.grow {scopes : List (Bindings Readiness)} {loose : List (List String)}
    (fits : before.Fits scopes loose) (grows : before.Grows survey after) :
    after.Fits scopes loose := by
  unfold Fits
  rw [grows.environment]
  exact Environment.Fits.grow fits grows.store

end Machine

/-! ## Steps -/

theorem Run.bind_ok {α β : Type} {step : Run α} {next : α → Run β} {result : β} :
    (step >>= next) before = .ok result after ↔
      ∃ value middle, step before = .ok value middle ∧ next value middle = .ok result after := by
  change EStateM.bind step next before = _ ↔ _
  unfold EStateM.bind
  cases step before with
  | ok value middle => simp
  | error halt middle => simp

/-- A step that keeps a machine sound, and what its result is like. -/
def Run.Keeps {α : Type} (survey : Survey) (step : Run α) (before : Machine)
    (result : Machine → α → Prop) : Prop :=
  match step before with
  | .ok value after => before.Grows survey after ∧ result after value
  | .error _ after => before.Grows survey after

namespace Run

variable {α β : Type} {result : Machine → α → Prop}

theorem keeps_of_ok {step : Run α} {value : α} (ran : step before = .ok value after)
    (grows : before.Grows survey after) (holds : result after value) :
    step.Keeps survey before result := by
  unfold Keeps
  rw [ran]
  exact ⟨grows, holds⟩

theorem keeps_pure {value : α} (sound : before.Sound survey) (holds : result before value) :
    (pure value : Run α).Keeps survey before result :=
  ⟨sound.grows, holds⟩

theorem keeps_throw {halt : Halt} (sound : before.Sound survey) :
    (throw halt : Run α).Keeps survey before result :=
  sound.grows

theorem keeps_fail {fault : RuntimeFault} (sound : before.Sound survey) :
    (fail fault : Run α).Keeps survey before result :=
  sound.grows

theorem keeps_get (sound : before.Sound survey) :
    (get : Run Machine).Keeps survey before fun after machine =>
      before = after ∧ before = machine :=
  ⟨sound.grows, rfl, rfl⟩

/-- One step after another. The second starts from a machine that has grown. -/
theorem Keeps.bind {step : Run α} {next : α → Run β} {final : Machine → β → Prop}
    (front : step.Keeps survey before result)
    (back : ∀ middle value, before.Grows survey middle → result middle value →
      (next value).Keeps survey middle final) :
    (step >>= next).Keeps survey before final := by
  change Run.Keeps survey (EStateM.bind step next) before final
  unfold Keeps EStateM.bind at *
  cases ran : step before with
  | error halt middle =>
      rw [ran] at front
      exact front
  | ok value middle =>
      rw [ran] at front
      have rest := back middle value front.1 front.2
      simp only
      cases ranNext : next value middle with
      | error halt after =>
          rw [ranNext] at rest
          exact front.1.trans rest
      | ok value after =>
          rw [ranNext] at rest
          exact ⟨front.1.trans rest.1, rest.2⟩

theorem Keeps.imp {step : Run α} {weaker : Machine → α → Prop}
    (keeps : step.Keeps survey before result)
    (weaken : ∀ after value, step before = .ok value after → before.Grows survey after →
      result after value → weaker after value) : step.Keeps survey before weaker := by
  unfold Keeps at *
  cases ran : step before with
  | error halt after =>
      rw [ran] at keeps
      exact keeps
  | ok value after =>
      rw [ran] at keeps
      exact ⟨keeps.1, weaken after value ran keeps.1 keeps.2⟩

theorem keeps_orFail {found : Option α} {fault : RuntimeFault} (sound : before.Sound survey)
    (holds : ∀ value, found = some value → result before value) :
    (orFail found fault).Keeps survey before result := by
  cases found with
  | none => exact keeps_fail sound
  | some value => exact keeps_pure sound (holds value rfl)

/-- The environment of a step inside another one does not matter behind it. -/
theorem keeps_within {environment : Environment} {step : Run α}
    (keeps : step.Keeps survey { before with environment := environment } fun after value =>
      result { after with environment := before.environment } value) :
    (within environment step).Keeps survey before result := by
  unfold Keeps within at *
  have leave (after : Machine)
      (grows : Machine.Grows survey { before with environment := environment } after) :
      before.Grows survey { after with environment := before.environment } :=
    ⟨⟨grows.sound.globals, grows.sound.stored, grows.sound.fielded, grows.sound.host⟩,
      grows.store, rfl, grows.distances, grows.host⟩
  cases ran : step { before with environment := environment } with
  | error halt after =>
      rw [ran] at keeps
      exact leave after keeps
  | ok value after =>
      rw [ran] at keeps
      exact ⟨leave after keeps.1, keeps.2⟩

end Run

namespace Machine

/-- Neither the environment nor the sink has to do with soundness, nor do the
counters. -/
theorem Sound.of_eq (sound : before.Sound survey) (store : after.store = before.store)
    (host : after.host = before.host) : after.Sound survey := by
  constructor
  · rw [store]
    exact sound.globals
  · rw [store]
    exact sound.stored
  · rw [store]
    exact sound.fielded
  · rw [host]
    exact sound.host

end Machine

namespace Run

variable {α : Type} {result : Machine → α → Prop}

/-! ## Counters, the sink and the host -/

theorem keeps_newIdentity (sound : before.Sound survey) :
    newIdentity.Keeps survey before fun _ _ => True :=
  ⟨⟨sound.of_eq rfl rfl, .refl _, rfl, rfl, rfl⟩, trivial⟩

theorem keeps_print (sound : before.Sound survey) (value : Value) :
    (print value).Keeps survey before fun _ _ => True := by
  unfold Keeps print
  cases before.sink.writeAll (value.pieces ++ ["\n"]) with
  | mk refusal sink =>
      cases refusal with
      | none => exact ⟨⟨sound.of_eq rfl rfl, .refl _, rfl, rfl, rfl⟩, trivial⟩
      | some reason => exact ⟨sound.of_eq rfl rfl, .refl _, rfl, rfl, rfl⟩

theorem keeps_flush (sound : before.Sound survey) :
    flush.Keeps survey before fun _ _ => True := by
  apply (keeps_get sound).bind
  rintro _ _ grows ⟨rfl, rfl⟩
  split
  · exact keeps_pure sound trivial
  · exact keeps_fail sound

theorem keeps_callHost (sound : before.Sound survey) (function : Native)
    (arguments : List Value) (line : Nat) :
    (callHost function arguments line).Keeps survey before fun after value =>
      survey.LocatedValue after.store value := by
  apply (keeps_get sound).bind
  rintro _ _ _ ⟨rfl, rfl⟩
  have counted : (set { before with hostCalls := before.hostCalls + 1 } : Run PUnit).Keeps survey
      before fun _ _ => True :=
    ⟨⟨sound.of_eq rfl rfl, .refl _, rfl, rfl, rfl⟩, trivial⟩
  apply counted.bind
  intro middle _ grows _
  cases answer : before.host function before.hostCalls arguments with
  | ok value => exact keeps_pure grows.sound (sound.host _ _ _ _ answer _)
  | error message => exact keeps_fail grows.sound

theorem keeps_ofOperator (sound : before.Sound survey) (operator : Token)
    {outcome : Except TypeFault Value}
    (plain : ∀ value, outcome = .ok value → survey.LocatedValue before.store value) :
    (ofOperator operator outcome).Keeps survey before fun after value =>
      survey.LocatedValue after.store value := by
  cases outcome with
  | ok value => exact keeps_pure sound (plain value rfl)
  | error fault => exact keeps_fail sound

/-! ## The store -/

/-- A value bound in a scope has to be located once it is bound. -/
theorem sound_define (sound : before.Sound survey) (reference : ScopeRef) {name : String}
    (ordinary : IsOrdinaryName name) {value : Value}
    (located : survey.LocatedValue (before.store.define reference name value) value) :
    before.Grows survey { before with store := before.store.define reference name value } := by
  have growth := Store.Extends.define before.store reference ordinary value
  refine ⟨⟨?_, ?_, ?_, sound.host⟩, growth, rfl, rfl, rfl⟩
  · simpa using sound.globals
  · intro other text found held
    change ((before.store.define reference name value).scope other).get? text = some found at held
    rw [Store.scope_define] at held
    split at held
    · rw [Bindings.get?_set] at held
      split at held
      · cases held
        exact located
      · exact (sound.stored _ _ _ held).grow growth
    · exact (sound.stored _ _ _ held).grow growth
  · intro other text found held
    exact (sound.fielded other text found held).grow growth

/-- Inside of all scopes a name is bound in the innermost one. -/
theorem define_of_inside {reference : ScopeRef} {outer : Environment} (name : String)
    (value : Value) (around : before.environment = reference :: outer) :
    define name value before =
      .ok () { before with store := before.store.define reference name value } := by
  obtain ⟨store, environment, distances, nextIdentity, hostCalls, sink, host⟩ := before
  cases around
  rfl

/-- A name bound in the innermost scope is there afterwards. -/
theorem keeps_define (sound : before.Sound survey) {scopes : List (Bindings Readiness)}
    {loose : List (List String)} (fits : before.Fits scopes loose) {name : String}
    (ordinary : IsOrdinaryName name) (value : Value)
    (located : ∀ store, before.store.Extends store →
      Environment.Fits store (declaring [name] scopes) loose before.environment →
      survey.LocatedValue store value) :
    (define name value).Keeps survey before fun after _ =>
      after.Fits (declaring [name] scopes) loose := by
  obtain ⟨reference, outer, around⟩ : ∃ reference outer,
      before.environment = reference :: outer := by
    unfold Machine.Fits at fits
    cases environment : before.environment with
    | nil =>
        rw [environment] at fits
        nomatch fits
    | cons reference outer => exact ⟨reference, outer, rfl⟩
  have ran := define_of_inside name value around
  have growth := Store.Extends.define before.store reference ordinary value
  have bound : Environment.Fits (before.store.define reference name value)
      (declaring [name] scopes) loose before.environment := by
    have inner : scopes ≠ [] → reference.index < before.store.scopes.size := by
      intro present
      unfold Machine.Fits at fits
      rw [around] at fits
      cases fits with
      | globals => exact absurd rfl present
      | inside _ allocated _ _ _ => exact allocated
    apply (Environment.Fits.grow fits growth).declaring
    intro other rest same present
    rw [around] at same
    cases same
    rw [Store.scope_define, if_pos ⟨rfl, inner present⟩, Bindings.contains_set]
    simp
  apply keeps_of_ok ran
  · exact sound_define sound reference ordinary (located _ growth bound)
  · exact bound

theorem keeps_newScope (scope : Bindings Readiness) (bindings : Bindings Value)
    (sound : before.Sound survey) {scopes : List (Bindings Readiness)}
    {loose : List (List String)} {outer : Environment}
    (fits : Environment.Fits before.store scopes loose outer)
    (located : ∀ name value, bindings.get? name = some value →
      survey.LocatedValue before.store value)
    (bound : ∀ name, scope.get? name = some .ready → bindings.contains name = true)
    (keywords : ∀ name, ¬ IsOrdinaryName name → bindings.contains name = true →
      scope.contains name = true) :
    (newScope outer bindings).Keeps survey before fun after environment =>
      Environment.Fits after.store (scope :: scopes) ([] :: loose) environment := by
  have growth := Store.Extends.addScope before.store bindings
  have opened : Machine.Sound survey
      { before with store := (before.store.addScope bindings).2 } := by
    constructor
    case globals => exact Nat.lt_of_lt_of_le sound.globals growth.size
    case stored =>
      intro other text found held
      rw [Store.scope_addScope] at held
      split at held
      · exact (located _ _ held).grow growth
      · exact (sound.stored _ _ _ held).grow growth
    case fielded =>
      exact fun other text found held => (sound.fielded other text found held).grow growth
    case host => exact sound.host
  exact ⟨⟨opened, growth, rfl, rfl, rfl⟩, fits.addScope sound.globals bound keywords⟩

/-- A new scope that holds one value. -/
theorem keeps_newScope_single (name : String) {value : Value} (sound : before.Sound survey)
    {scopes : List (Bindings Readiness)} {loose : List (List String)} {outer : Environment}
    (fits : Environment.Fits before.store scopes loose outer)
    (located : survey.LocatedValue before.store value) :
    (newScope outer (Bindings.empty.set name value)).Keeps survey before fun after environment =>
      Environment.Fits after.store (Bindings.empty.set name .ready :: scopes) ([] :: loose)
        environment := by
  apply keeps_newScope _ _ sound fits
  · intro other found held
    rw [Bindings.get?_set] at held
    split at held
    · cases held
      exact located
    · cases held
  · intro other ready
    rw [Bindings.get?_set] at ready
    split at ready
    · next same => simp [Bindings.contains_set, same]
    · cases ready
  · intro other _ bound
    rw [Bindings.contains_set] at bound ⊢
    exact bound

theorem keeps_newInstance (sound : before.Sound survey) (cls : Class)
    (located : survey.LocatedClass before.store cls) :
    (newInstance cls).Keeps survey before fun after object =>
      object.cls = cls ∧ survey.LocatedClass after.store object.cls := by
  have growth : before.store.Extends before.store.addInstance.2 := .of_scopes rfl
  refine ⟨⟨⟨sound.globals, ?_, ?_, sound.host⟩, growth, rfl, rfl, rfl⟩, rfl, ?_⟩
  · intro other text found held
    exact (sound.stored other text found held).grow growth
  · intro other text found held
    change (before.store.addInstance.2.fieldsOf other).get? text = some found at held
    rw [Store.fieldsOf_addInstance] at held
    split at held
    · cases held
    · exact (sound.fielded _ _ _ held).grow growth
  · exact located.grow growth

theorem keeps_setProperty (sound : before.Sound survey) (object : Instance) (name : Token)
    {value : Value} (located : survey.LocatedValue before.store value) :
    (object.setProperty name value).Keeps survey before fun _ _ => True := by
  have growth : before.store.Extends
      (before.store.setField object.reference name.lexeme value) := .of_scopes rfl
  refine ⟨⟨⟨sound.globals, ?_, ?_, sound.host⟩, growth, rfl, rfl, rfl⟩, trivial⟩
  · intro other text found held
    exact (sound.stored other text found held).grow growth
  · intro other text found held
    change ((before.store.setField object.reference name.lexeme value).fieldsOf other).get? text =
      some found at held
    rw [Store.fieldsOf_setField] at held
    split at held
    · rw [Bindings.get?_set] at held
      split at held
      · cases held
        exact located.grow growth
      · exact (sound.fielded _ _ _ held).grow growth
    · exact (sound.fielded _ _ _ held).grow growth

/-! ## Names -/

/-- What is found in a scope of a sound machine is located. -/
theorem located_lookupAt (sound : before.Sound survey) {environment : Environment}
    {distance : Nat} {name : String} {value : Value}
    (found : environment.lookupAt? before.store distance name = some value) :
    survey.LocatedValue before.store value := by
  obtain ⟨reference, _, held⟩ := Option.bind_eq_some_iff.mp found
  exact sound.stored reference name value held

theorem keeps_read (sound : before.Sound survey) (reference : Reference) :
    (read reference).Keeps survey before fun after value =>
      survey.LocatedValue after.store value := by
  apply (keeps_get sound).bind
  rintro _ _ _ ⟨rfl, rfl⟩
  apply keeps_orFail sound
  intro value found
  split at found
  · exact located_lookupAt sound found
  · obtain ⟨scope, _, held⟩ := List.exists_of_findSome?_eq_some found
    exact sound.stored scope _ value held

theorem keeps_write (sound : before.Sound survey) {reference : Reference}
    (ordinary : reference.name.IsOrdinary) {value : Value}
    (located : survey.LocatedValue before.store value) :
    (write reference value).Keeps survey before fun _ _ => True := by
  apply (keeps_get sound).bind
  rintro _ _ _ ⟨rfl, rfl⟩
  have target : (orFail (target? reference before) (.variableAt reference.name)).Keeps survey
      before fun after _ => before = after :=
    keeps_orFail sound fun _ _ => rfl
  apply target.bind
  rintro _ scope _ rfl
  have growth := Store.Extends.define before.store scope ordinary value
  exact ⟨sound_define sound scope ordinary (located.grow growth), trivial⟩

end Run

end Lox
