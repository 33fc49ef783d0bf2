import Lox.Proofs.Evaluation.Survey
import Lox.Proofs.Receivers.Watch

/-!
# What is noted agrees with the scopes

The scopes around a function hold its receiver as well: the nearest scope that
binds `this` holds the object, and the scope around that one may hold the
superclass. Here the two are compared. A function is noted if its noted receiver
is the one that its scopes hold, a method if its noted superclass is. Each step
keeps everything noted that the machine holds.
-/

namespace Lox

/-! ## Receivers in scopes -/

namespace Environment

/-- What the innermost scope has for `super`. -/
def superclass? (store : Store) (environment : Environment) : Option Class :=
  environment.head?.bind fun scope =>
    match (store.scope scope).get? "super" with
    | some (.cls superclass) => some superclass
    | _ => none

/-- The receiver that scopes hold: the object in the nearest scope that has `this`,
and the superclass in the scope around that one. -/
def receiver? (store : Store) : Environment → Option Receiver
  | [] => none
  | scope :: outer =>
      match (store.scope scope).get? "this" with
      | some (.object object) => some ⟨object, superclass? store outer⟩
      | _ => receiver? store outer

/-- All scopes of an environment are in the store. -/
def Allocated (store : Store) (environment : Environment) : Prop :=
  ∀ scope ∈ environment, scope.index < store.scopes.size

variable {before after store : Store} {environment outer : Environment} {scope : ScopeRef}

theorem not_ordinary_this : ¬ IsOrdinaryName "this" := fun ordinary => ordinary.1 rfl

theorem not_ordinary_super : ¬ IsOrdinaryName "super" := fun ordinary => ordinary.2 rfl

theorem Allocated.grow (allocated : environment.Allocated before)
    (growth : before.Extends after) : environment.Allocated after :=
  fun scope inside => Nat.lt_of_lt_of_le (allocated scope inside) growth.size

theorem Allocated.tail (allocated : Allocated store (scope :: outer)) : outer.Allocated store :=
  fun other inside => allocated other (.tail _ inside)

theorem superclass?_grow (allocated : environment.Allocated before)
    (growth : before.Extends after) :
    environment.superclass? after = environment.superclass? before := by
  cases environment with
  | nil => rfl
  | cons scope outer =>
      unfold superclass?
      rw [List.head?_cons, Option.bind_some, Option.bind_some,
        growth.keywords scope "super" (allocated scope (.head _)) not_ordinary_super]

/-- What scopes hold for `this` and `super` stays as it is. -/
theorem receiver?_grow (allocated : environment.Allocated before)
    (growth : before.Extends after) :
    environment.receiver? after = environment.receiver? before := by
  induction environment with
  | nil => rfl
  | cons scope outer ih =>
      rw [receiver?, receiver?,
        growth.keywords scope "this" (allocated scope (.head _)) not_ordinary_this,
        superclass?_grow allocated.tail growth, ih allocated.tail]

theorem receiver?_of_none (free : (store.scope scope).get? "this" = none) :
    receiver? store (scope :: outer) = receiver? store outer := by
  rw [receiver?, free]

theorem receiver?_of_object {object : Instance}
    (held : (store.scope scope).get? "this" = some (.object object)) :
    receiver? store (scope :: outer) = some ⟨object, superclass? store outer⟩ := by
  rw [receiver?, held]

theorem superclass?_of_none (free : (store.scope scope).get? "super" = none) :
    superclass? store (scope :: outer) = none := by
  unfold superclass?
  rw [List.head?_cons, Option.bind_some, free]

theorem superclass?_of_cls {superclass : Class}
    (held : (store.scope scope).get? "super" = some (.cls superclass)) :
    superclass? store (scope :: outer) = some superclass := by
  unfold superclass?
  rw [List.head?_cons, Option.bind_some, held]

end Environment

/-! ## Growing notes -/

/-- Notes after some more steps. Nothing is noted anew about functions that were
there before. -/
structure Watch.Extends (before after : Watch) : Prop where
  store : before.machine.store.Extends after.machine.store
  identities : before.machine.nextIdentity ≤ after.machine.nextIdentity
  receivers : ∀ identity < before.machine.nextIdentity,
    after.receivers identity = before.receivers identity
  superclasses : ∀ identity < before.machine.nextIdentity,
    after.superclasses identity = before.superclasses identity

namespace Watch.Extends

variable {before middle after : Watch}

theorem refl (watch : Watch) : watch.Extends watch :=
  ⟨.refl _, Nat.le_refl _, fun _ _ => rfl, fun _ _ => rfl⟩

theorem trans (front : before.Extends middle) (back : middle.Extends after) :
    before.Extends after := by
  constructor
  · exact front.store.trans back.store
  · exact Nat.le_trans front.identities back.identities
  · intro identity below
    rw [back.receivers identity (Nat.lt_of_lt_of_le below front.identities),
      front.receivers identity below]
  · intro identity below
    rw [back.superclasses identity (Nat.lt_of_lt_of_le below front.identities),
      front.superclasses identity below]

end Watch.Extends

/-! ## Values -/

/-- A function whose scopes are in the store and whose parameters are ordinary
names. -/
structure Closure.Known (watch : Watch) (closure : Closure) : Prop where
  identity : closure.identity < watch.machine.nextIdentity
  allocated : closure.environment.Allocated watch.machine.store
  ordinary : ∀ parameter ∈ closure.declaration.parameters, parameter.IsOrdinary

/-- A function whose noted receiver is the one that its scopes hold. An initializer
has the scope of its object directly around it. -/
structure Closure.Noted (watch : Watch) (closure : Closure) : Prop
    extends closure.Known watch where
  receiver : watch.receivers closure.identity =
    closure.environment.receiver? watch.machine.store
  bound : closure.isInitializer = true → ∃ scope outer object,
    closure.environment = scope :: outer ∧
      (watch.machine.store.scope scope).get? "this" = some (.object object)

/-- A method whose noted superclass is the one that its scopes hold. -/
structure Closure.NotedMethod (watch : Watch) (method : Closure) : Prop
    extends method.Known watch where
  superclass : watch.superclasses method.identity =
    method.environment.superclass? watch.machine.store

/-- A class all of whose methods are noted, also the inherited ones. -/
def Class.Noted (watch : Watch) (cls : Class) : Prop :=
  ∀ layer ∈ cls.chain, ∀ name method, layer.methods.get? name = some method →
    method.NotedMethod watch

/-- A value with no function in it that is not noted. -/
def Value.Noted (watch : Watch) : Value → Prop
  | .function closure => closure.Noted watch
  | .cls found => found.Noted watch
  | .object found => found.cls.Noted watch
  | .nil | .bool _ | .number _ | .string _ | .native _ => True

/-- Something to call with no function in it that is not noted. -/
def Callable.Noted (watch : Watch) : Callable → Prop
  | .native _ => True
  | .function closure => closure.Noted watch
  | .cls found => found.Noted watch

/-- A flow with a noted value, if it has one. -/
def Flow.Noted (watch : Watch) : Flow → Prop
  | .normal => True
  | .returned value => value.Noted watch

section Values

variable {before after watch : Watch}

theorem Closure.Known.grow {closure : Closure} (known : closure.Known before)
    (growth : before.Extends after) : closure.Known after := by
  constructor
  · exact Nat.lt_of_lt_of_le known.identity growth.identities
  · exact known.allocated.grow growth.store
  · exact known.ordinary

theorem Closure.Noted.grow {closure : Closure} (noted : closure.Noted before)
    (growth : before.Extends after) : closure.Noted after := by
  constructor
  · exact noted.toKnown.grow growth
  · rw [growth.receivers _ noted.identity, noted.receiver,
      Environment.receiver?_grow noted.allocated growth.store]
  · intro initializes
    obtain ⟨scope, outer, object, around, held⟩ := noted.bound initializes
    refine ⟨scope, outer, object, around, ?_⟩
    have allocated : scope.index < before.machine.store.scopes.size :=
      noted.allocated scope (around ▸ .head _)
    rw [growth.store.keywords scope "this" allocated Environment.not_ordinary_this, held]

theorem Closure.NotedMethod.grow {method : Closure} (noted : method.NotedMethod before)
    (growth : before.Extends after) : method.NotedMethod after := by
  constructor
  · exact noted.toKnown.grow growth
  · rw [growth.superclasses _ noted.identity, noted.superclass,
      Environment.superclass?_grow noted.allocated growth.store]

theorem Class.Noted.grow {cls : Class} (noted : cls.Noted before)
    (growth : before.Extends after) : cls.Noted after :=
  fun layer inside name method found => (noted layer inside name method found).grow growth

theorem Value.Noted.grow {value : Value} (noted : value.Noted before)
    (growth : before.Extends after) : value.Noted after := by
  cases value with
  | function closure => exact Closure.Noted.grow noted growth
  | cls cls => exact Class.Noted.grow noted growth
  | object object => exact Class.Noted.grow noted growth
  | nil => trivial
  | bool _ => trivial
  | number _ => trivial
  | string _ => trivial
  | native _ => trivial

/-- A method found in a class is one of its layers' methods. -/
theorem Class.Noted.method {cls : Class} (noted : cls.Noted watch) {name : String}
    {method : Closure} (found : cls.method? name = some method) : method.NotedMethod watch := by
  obtain ⟨layer, inside, here⟩ := List.exists_of_findSome?_eq_some found
  exact noted layer inside name method here

/-- A class whose superclass is noted is noted as well. -/
theorem Class.noted_extend {own : ClassLayer} {superclass : Option Class}
    (methods : ∀ name method, own.methods.get? name = some method → method.NotedMethod watch)
    (above : ∀ cls, superclass = some cls → cls.Noted watch) :
    (Class.extend own superclass).Noted watch := by
  intro layer inside name method held
  cases superclass with
  | none =>
      obtain rfl := List.mem_singleton.mp inside
      exact methods name method held
  | some cls =>
      rcases List.mem_cons.mp inside with rfl | outer
      · exact methods name method held
      · exact above cls rfl layer outer name method held

theorem Value.IsPlain.noted {value : Value} (plain : value.IsPlain) (watch : Watch) :
    value.Noted watch := by
  cases value with
  | function _ => exact plain.elim
  | cls _ => exact plain.elim
  | object _ => exact plain.elim
  | _ => trivial

theorem Value.Noted.callable {value : Value} {callable : Callable} (noted : value.Noted watch)
    (found : value.callable? = some callable) : callable.Noted watch := by
  cases value with
  | native host =>
      cases found
      trivial
  | function closure =>
      cases found
      exact noted
  | cls cls =>
      cases found
      exact noted
  | _ => cases found

end Values

/-! ## Watches -/

/-- A watch on which everything that the machine holds is noted, and on which all
sights were right. -/
structure Watch.Sound (watch : Watch) : Prop where
  stored : ∀ scope name value, (watch.machine.store.scope scope).get? name = some value →
    value.Noted watch
  fielded : ∀ reference name value,
    (watch.machine.store.fieldsOf reference).get? name = some value → value.Noted watch
  objects : ∀ scope value, (watch.machine.store.scope scope).get? "this" = some value →
    ∃ object, value = .object object
  classes : ∀ scope value, (watch.machine.store.scope scope).get? "super" = some value →
    ∃ superclass, value = .cls superclass
  host : ∀ function count arguments value,
    watch.machine.host function count arguments = .ok value → value.IsPlain
  right : ∀ sighting ∈ watch.sightings, sighting.Right

/-- From one watch to another one on the way through a run. -/
structure Watch.Grows (before after : Watch) : Prop extends before.Extends after where
  sound : after.Sound
  environment : after.machine.environment = before.machine.environment

/-- The environment is one for code with a receiver: no class has opened its
innermost scope, and its scopes hold that receiver. -/
structure Watch.Around (receiver : Option Receiver) (watch : Watch) : Prop where
  allocated : watch.machine.environment.Allocated watch.machine.store
  holds : watch.machine.environment.receiver? watch.machine.store = receiver
  closed : watch.machine.environment.superclass? watch.machine.store = none

namespace Watch

variable {before middle after : Watch} {receiver : Option Receiver}

theorem Sound.grows (sound : before.Sound) : before.Grows before :=
  ⟨.refl _, sound, rfl⟩

theorem Grows.trans (front : before.Grows middle) (back : middle.Grows after) :
    before.Grows after :=
  ⟨front.toExtends.trans back.toExtends, back.sound, back.environment.trans front.environment⟩

theorem Around.grow (around : before.Around receiver) (grows : before.Grows after) :
    after.Around receiver := by
  constructor
  · rw [grows.environment]
    exact around.allocated.grow grows.store
  · rw [grows.environment, Environment.receiver?_grow around.allocated grows.store]
    exact around.holds
  · rw [grows.environment, Environment.superclass?_grow around.allocated grows.store]
    exact around.closed

theorem Extends.of_store {machine : Machine} (store : machine.store = before.machine.store)
    (identities : before.machine.nextIdentity ≤ machine.nextIdentity) :
    before.Extends { before with machine := machine } :=
  ⟨.of_scopes (congrArg Store.scopes store), identities, fun _ _ => rfl, fun _ _ => rfl⟩

/-- A change of the machine that has nothing to do with functions and scopes. -/
theorem Sound.of_store (sound : before.Sound) {machine : Machine}
    (store : machine.store = before.machine.store)
    (identities : before.machine.nextIdentity ≤ machine.nextIdentity)
    (host : machine.host = before.machine.host) :
    Sound { before with machine := machine } := by
  have growth : before.Extends { before with machine := machine } := .of_store store identities
  refine { stored := ?stored
           fielded := ?fielded
           objects := store ▸ sound.objects
           classes := store ▸ sound.classes
           host := host ▸ sound.host
           right := sound.right }
  case stored =>
    intro scope name value held
    rw [store] at held
    exact (sound.stored scope name value held).grow growth
  case fielded =>
    intro reference name value held
    rw [store] at held
    exact (sound.fielded reference name value held).grow growth

end Watch

/-! ## Steps -/

/-- A watched step that keeps everything noted, and what its result is like. -/
def Watching.Keeps {α : Type} (step : Watching α) (before : Watch)
    (result : Watch → α → Prop) : Prop :=
  match step before with
  | .ok value after => before.Grows after ∧ result after value
  | .error _ after => before.Grows after

namespace Watching

variable {α β : Type} {before : Watch} {result : Watch → α → Prop}

theorem keeps_pure {value : α} (sound : before.Sound) (holds : result before value) :
    (pure value : Watching α).Keeps before result :=
  ⟨sound.grows, holds⟩

theorem keeps_throw {halt : Halt} (sound : before.Sound) :
    (throw halt : Watching α).Keeps before result :=
  sound.grows

/-- One step after another. -/
theorem Keeps.bind {step : Watching α} {next : α → Watching β} {final : Watch → β → Prop}
    (front : step.Keeps before result)
    (back : ∀ middle value, step before = .ok value middle → before.Grows middle →
      result middle value → (next value).Keeps middle final) :
    (step >>= next).Keeps before final := by
  change Watching.Keeps (EStateM.bind step next) before final
  unfold Keeps EStateM.bind at *
  cases ran : step before with
  | error halt middle =>
      rw [ran] at front
      exact front
  | ok value middle =>
      rw [ran] at front
      have rest := back middle value ran front.1 front.2
      dsimp only
      cases ranNext : next value middle with
      | error halt after =>
          rw [ranNext] at rest
          exact front.1.trans rest
      | ok value after =>
          rw [ranNext] at rest
          exact ⟨front.1.trans rest.1, rest.2⟩

theorem Keeps.imp {step : Watching α} {weaker : Watch → α → Prop} (keeps : step.Keeps before result)
    (weaken : ∀ after value, before.Grows after → result after value → weaker after value) :
    step.Keeps before weaker := by
  unfold Keeps at *
  cases ran : step before with
  | error halt after =>
      rw [ran] at keeps
      exact keeps
  | ok value after =>
      rw [ran] at keeps
      exact ⟨keeps.1, weaken after value keeps.1 keeps.2⟩

/-- A look at what is there. -/
theorem keeps_get {next : Watch → Watching α} (back : (next before).Keeps before result) :
    (get >>= next).Keeps before result := back

/-- The environment of a step inside another one does not matter behind it. -/
theorem keeps_within {environment : Environment} {step : Watching α}
    (keeps : step.Keeps
      { before with machine := { before.machine with environment := environment } } result)
    (lasts : ∀ {one other : Watch} {value : α}, one.Extends other → result one value →
      result other value) : (within environment step).Keeps before result := by
  have into : before.Extends
      { before with machine := { before.machine with environment := environment } } :=
    .of_store rfl (Nat.le_refl _)
  have out (after : Watch) : after.Extends { after with machine :=
      { after.machine with environment := before.machine.environment } } :=
    .of_store rfl (Nat.le_refl _)
  have leave {after : Watch} (grows : Watch.Grows
      { before with machine := { before.machine with environment := environment } } after) :
      before.Grows { after with machine :=
        { after.machine with environment := before.machine.environment } } :=
    ⟨(into.trans grows.toExtends).trans (out after),
      grows.sound.of_store rfl (Nat.le_refl _) rfl, rfl⟩
  unfold Keeps within at *
  cases ran : step { before with machine :=
      { before.machine with environment := environment } } with
  | error halt after =>
      rw [ran] at keeps
      exact leave keeps
  | ok value after =>
      rw [ran] at keeps
      exact ⟨leave keeps.1, lasts (out after) keeps.2⟩

end Watching

end Lox
