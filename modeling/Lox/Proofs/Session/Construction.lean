import Lox.Proofs.Session.Chronicle

/-!
# Construction yields the instance

A call of a class that has an initializer, of its own or inherited, makes a new instance
of that very class and runs the nearest initializer on it. Whatever the body of an
initializer does, a call of it yields the object that it is bound to, unless it fails.
-/

namespace Lox

/-! ## Calls that succeed -/

variable {before : Chronicle} {arguments : List Value} {steps line : Nat}

/-- What a step leaves behind where it succeeds without a chronicle. -/
theorem Chronicling.Keeps.of_ok {α : Type} {step : Chronicling α} {plain : Run α}
    {result : Chronicle → α → Prop} {value : α} {machine : Machine}
    (keeps : Keeps step before result) (forgets : Forgets step plain)
    (ran : plain before.machine = .ok value machine) :
    ∃ after, before.Grows after ∧ after.machine = machine ∧ result after value := by
  obtain ⟨after, recorded, same⟩ := forgets.of_ok ran
  unfold Keeps at keeps
  rw [recorded] at keeps
  exact ⟨after, keeps.1, same, keeps.2⟩

namespace Chronicle.Sound

/-- A call of a bound initializer yields the object that it is bound to. -/
theorem yields (sound : before.Sound) {bound : Closure} {object : Instance}
    (happened : .bound bound object ∈ before.past) (named : bound.name = Class.initializerName)
    (given : ∀ argument ∈ arguments, argument.Arisen before.past) {result : Value}
    {after : Machine}
    (ran : invoke steps (.function bound) arguments line before.machine = .ok result after) :
    result = .object object := by
  have arisen : (Callable.function bound).Arisen before.past := .inr ⟨object, happened⟩
  have forgets := (Chronicling.forgetsWithin steps).invoke (.function bound) arguments line
  obtain ⟨-, -, -, -, yields⟩ :=
    ((Chronicling.keepsWithin steps).invoke arisen given sound).of_ok forgets ran
  exact yields bound object rfl happened named

/-- A method named `init` that is bound to an object yields it from then on. -/
theorem yields_bind (sound : before.Sound) {cls : Class} {initializer : Closure}
    (arisen : (Value.cls cls).Arisen before.past) (found : cls.initializer? = some initializer)
    {object : Instance} (created : (Value.object object).Arisen before.past) {bound : Closure}
    {middle : Machine} (attached : initializer.bind object before.machine = .ok bound middle)
    (given : ∀ argument ∈ arguments, argument.Arisen before.past) {result : Value}
    {after : Machine}
    (ran : invoke steps (.function bound) arguments line middle = .ok result after) :
    result = .object object := by
  have isMethod := sound.present.isMethod arisen found
  obtain ⟨chronicle, grows, rfl, declaration, happened⟩ :=
    (Chronicling.keeps_bind sound isMethod created).of_ok
      (Chronicling.forgets_bind initializer object) attached
  have named : bound.name = Class.initializerName := by
    rw [Closure.name, declaration]
    exact sound.present.name_of_method? arisen found
  exact grows.sound.yields happened named
    (fun argument inside => (given argument inside).grow grows) ran

end Chronicle.Sound

/-! ## Calls of classes -/

/-- A call of a class, taken apart: a new object is made, and the nearest initializer is
bound to it and called. -/
structure Class.Constructs (cls : Class) (initializer : Closure) (steps : Nat)
    (arguments : List Value) (line : Nat) (before after : Machine) (object : Instance) :
    Prop where
  nearest : ∃ front layer back, cls.chain = front ++ layer :: back ∧
    layer.methods.get? Class.initializerName = some initializer ∧
    ∀ other ∈ front, other.methods.get? Class.initializerName = none
  runs : ∃ fewer created bound middle, steps = fewer + 1 ∧
    Run.newInstance cls before = .ok object created ∧
    initializer.bind object created = .ok bound middle ∧
    invoke fewer (.function bound) arguments line middle = .ok (.object object) after

namespace Chronicle.Sound

/-- A class that has an initializer constructs a new object where a call of it succeeds. -/
theorem constructs (sound : before.Sound) {cls : Class} {initializer : Closure}
    (arisen : (Value.cls cls).Arisen before.past) (found : cls.initializer? = some initializer)
    (given : ∀ argument ∈ arguments, argument.Arisen before.past) {result : Value}
    {after : Machine}
    (ran : invoke steps (.cls cls) arguments line before.machine = .ok result after) :
    ∃ object, result = .object object ∧ object.cls = cls ∧
      (∀ other, .created other ∈ before.past → other.reference ≠ object.reference) ∧
      cls.Constructs initializer steps arguments line before.machine after object := by
  cases steps with
  | zero => cases ran
  | succ fewer =>
      obtain ⟨object, created, made, rest⟩ := Run.bind_ok.mp ran
      rw [found] at rest
      obtain ⟨bound, middle, attached, called⟩ := Run.bind_ok.mp rest
      obtain ⟨value, last, invoked, ended⟩ := Run.bind_ok.mp called
      cases ended
      have new : object.reference = ⟨before.machine.store.fields.size⟩ := by
        cases made
        rfl
      obtain ⟨chronicle, grows, rfl, same, existing⟩ :=
        (Chronicling.keeps_create sound arisen).of_ok (Chronicling.forgets_create cls) made
      have yielded : value = .object object :=
        grows.sound.yields_bind (arisen.grow grows) found existing attached
          (fun argument inside => (given argument inside).grow grows) invoked
      subst yielded
      refine ⟨object, rfl, same, fun other earlier coincides => ?_, ?_,
        fewer, chronicle.machine, bound, middle, rfl, made, attached, invoked⟩
      · have inStore : other.reference.index < before.machine.store.fields.size :=
          (sound.present.holds _ earlier).1
        rw [coincides, new] at inStore
        exact Nat.lt_irrefl _ inStore
      · obtain ⟨front, layer, back, chain, here, absent⟩ :=
          List.findSome?_eq_some_iff.mp found
        exact ⟨front, layer, back, chain, here, absent⟩

/-- A method named `init` that is found in a property yields the object. -/
theorem yields_property (sound : before.Sound) {object : Instance}
    (created : .created object ∈ before.past) {name : Token}
    (named : name.lexeme = Class.initializerName)
    (unset : (before.machine.store.fieldsOf object.reference).get? Class.initializerName = none)
    {value : Value} {found : Machine}
    (read : object.property name before.machine = .ok value found) :
    ∃ method bound, object.cls.initializer? = some method ∧ value = .function bound ∧
      bound.declaration = method.declaration ∧
      ∀ steps arguments line result after,
        (∀ argument ∈ arguments, argument.Arisen before.past) →
        invoke steps (.function bound) arguments line found = .ok result after →
        result = .object object := by
  rw [← named] at unset
  rw [Instance.property_of_unset unset, named] at read
  cases inherits : object.cls.method? Class.initializerName with
  | none =>
      rw [inherits] at read
      cases read
  | some method =>
      rw [inherits] at read
      obtain ⟨bound, middle, attached, ended⟩ : ∃ bound middle,
          method.bind object before.machine = .ok bound middle ∧
            (pure (.function bound) : Run Value) middle = .ok value found :=
        Run.bind_ok.mp read
      cases ended
      have declaration : bound.declaration = method.declaration := by
        cases attached
        rfl
      refine ⟨method, bound, inherits, rfl, declaration, ?_⟩
      intro steps arguments line result after given ran
      exact sound.yields_bind (sound.present.holds _ created).2 inherits created attached given ran

end Chronicle.Sound

/-! ## Sessions -/

namespace Session

/-- At any moment of a session, whatever it has been asked: every class that has an
initializer makes a new instance of that very class when it is called, and runs the
nearest initializer on it. Every initializer that has been bound yields its object when
it is called, and so does one that is found in a property. -/
theorem construction_yields_instance (time : Native → Nat → Except String Float)
    (policy : SinkPolicy) (requests : List Request) {past future : List Occurrence}
    {machine : Machine}
    (moment : ((Chronicled.start (Host.ofTime time) policy).reach requests).chronicle.history =
      past ++ .moment machine :: future) :
    ((Chronicled.start (Host.ofTime time) policy).reach requests).forget =
        (Session.start (Host.ofTime time) policy).reach requests ∧
      (∀ value, machine.Holds value → value.Arisen past) ∧
      (∀ cls initializer steps arguments line result after,
        (Value.cls cls).Arisen past → cls.initializer? = some initializer →
        (∀ argument ∈ arguments, argument.Arisen past) →
        invoke steps (.cls cls) arguments line machine = .ok result after →
        ∃ object, result = .object object ∧ object.cls = cls ∧
          (∀ other, .created other ∈ past → other.reference ≠ object.reference) ∧
          cls.Constructs initializer steps arguments line machine after object) ∧
      (∀ bound object steps arguments line result after,
        .bound bound object ∈ past → bound.name = Class.initializerName →
        (∀ argument ∈ arguments, argument.Arisen past) →
        invoke steps (.function bound) arguments line machine = .ok result after →
        result = .object object) ∧
      ∀ object name value found, .created object ∈ past →
        name.lexeme = Class.initializerName →
        (machine.store.fieldsOf object.reference).get? Class.initializerName = none →
        object.property name machine = .ok value found →
        ∃ method bound, object.cls.initializer? = some method ∧ value = .function bound ∧
          bound.declaration = method.declaration ∧
          ∀ steps arguments line result after,
            (∀ argument ∈ arguments, argument.Arisen past) →
            invoke steps (.function bound) arguments line found = .ok result after →
            result = .object object := by
  have sound := (Chronicled.sound_reach time policy requests).at moment
  refine ⟨Chronicled.forget_reach _ requests, fun value => sound.present.arisen_of_holds,
    ?_, ?_, ?_⟩
  · intro cls initializer steps arguments line result after arisen found given ran
    exact sound.constructs arisen found given ran
  · intro bound object steps arguments line result after happened named given ran
    exact sound.yields happened named given ran
  · intro object name value found created named unset read
    exact sound.yields_property created named unset read

/-- A session in which a class inherits an initializer that returns something else,
which only goes unnoticed without binding. -/
def Chronicled.inheriting : Chronicled :=
  (start (Host.ofTime fun _ _ => .error "no time") .unlimited).reach
    [.runUnbound 20 "class A { init(x) { { return A; } } } class B < A {}"]

theorem constructs_inheriting :
    (match (Chronicled.inheriting.chronicle.machine.store.scope globalScope).get? "B" with
      | some (.cls cls) =>
          cls.initializer?.isSome &&
            match invoke 9 (.cls cls) [.nil] 1 Chronicled.inheriting.chronicle.machine with
            | .ok _ _ => true
            | .error _ _ => false
      | _ => false) = true := by
  decide +kernel

/-- What is returned instead is dropped, and the class is the one called. -/
theorem construction_yields_instance_inherited : ∃ cls initializer object after,
    (Chronicled.inheriting.chronicle.machine.store.scope globalScope).get? "B" =
      some (.cls cls) ∧
    cls.initializer? = some initializer ∧
    invoke 9 (.cls cls) [.nil] 1 Chronicled.inheriting.chronicle.machine =
      .ok (.object object) after ∧
    object.cls = cls := by
  have constructs := constructs_inheriting
  obtain ⟨-, held, construction, -⟩ := construction_yields_instance (fun _ _ => .error "no time")
    .unlimited
    [.runUnbound 20 "class A { init(x) { { return A; } } } class B < A {}"]
    (Chronicle.history_eq Chronicled.inheriting.chronicle)
  split at constructs
  · next cls found =>
      obtain ⟨inherits, called⟩ := Bool.and_eq_true_iff.mp constructs
      obtain ⟨initializer, inherits⟩ := Option.isSome_iff_exists.mp inherits
      split at called
      · next result after ran =>
          have arisen := held _ (.inl ⟨globalScope, "B", found⟩)
          obtain ⟨object, rfl, same, -⟩ := construction cls initializer 9 [.nil] 1 result after
            arisen inherits (by simp [Value.Arisen]) ran
          exact ⟨cls, initializer, object, after, found, inherits, ran, same⟩
      · cases called
  · cases constructs

end Session

end Lox
