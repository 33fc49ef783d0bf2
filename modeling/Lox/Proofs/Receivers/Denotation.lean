import Lox.Proofs.Binding.Keywords
import Lox.Proofs.Receivers.Forgetting
import Lox.Proofs.Receivers.Noting
import Lox.Proofs.Session.Agreement

/-!
# What `this` and `super` denote

The analysis binds `this` to the nearest scope of a class around it, and `super`
to the scope next to that one. In the environment of a run these are the scopes
that hold the receiver. So where code is watched, everything it sees of its
receiver is right. This goes by induction on the steps, and the moments that the
watched code comes to are those of the machine.
-/

namespace Lox

/-! ## Scopes with a receiver -/

namespace Environment

variable {store : Store} {scopes : List (Bindings Readiness)} {loose : List (List String)}
variable {environment : Environment} {distance : Nat}

/-- The scope at the distance of `this` holds the object of the receiver. No scope
nearer than that has any. -/
theorem Fits.receiver (fits : Fits store scopes loose environment)
    (objects : ∀ scope value, (store.scope scope).get? "this" = some value →
      ∃ object, value = .object object)
    (found : nearest scopes "this" = some distance)
    (awake : ∀ scope ∈ scopes, scope.get? "this" ≠ some .pending)
    (kept : ∀ names ∈ loose, "this" ∉ names) :
    ∃ object, environment.lookupAt? store distance "this" = some (.object object) ∧
      environment.receiver? store =
        some ⟨object, superclass? store (environment.drop (distance + 1))⟩ := by
  induction fits generalizing distance with
  | globals => cases found
  | @inside scope scopes names loose reference outer _ _ bound keywords _ ih =>
      rw [nearest_cons] at found
      split at found
      · next here =>
          cases found
          obtain ⟨readiness, ready⟩ := Option.isSome_iff_exists.mp here
          have settled : scope.get? "this" = some .ready := by
            cases readiness with
            | ready => exact ready
            | pending => exact absurd ready (awake scope (.head _))
          have held := bound "this" settled (kept names (.head _))
          obtain ⟨value, held⟩ := Option.isSome_iff_exists.mp held
          obtain ⟨object, rfl⟩ := objects reference value held
          exact ⟨object, held, receiver?_of_object held⟩
      · next absent =>
          obtain ⟨further, foundOuter, rfl⟩ := Option.map_eq_some_iff.mp found
          obtain ⟨object, held, receives⟩ := ih foundOuter
            (fun other inside => awake other (.tail _ inside))
            (fun other inside => kept other (.tail _ inside))
          have free : (store.scope reference).get? "this" = none := by
            have unbound := mt (keywords "this" not_ordinary_this) absent
            exact Option.not_isSome_iff_eq_none.mp unbound
          exact ⟨object, held, (receiver?_of_none free).trans receives⟩

/-- The scope at the distance of `super` holds the superclass. -/
theorem Fits.superclass (fits : Fits store scopes loose environment)
    (classes : ∀ scope value, (store.scope scope).get? "super" = some value →
      ∃ superclass, value = .cls superclass)
    (found : nearest scopes "super" = some distance)
    (awake : ∀ scope ∈ scopes, scope.get? "super" ≠ some .pending)
    (kept : ∀ names ∈ loose, "super" ∉ names) :
    ∃ superclass, environment.lookupAt? store distance "super" = some (.cls superclass) ∧
      superclass? store (environment.drop distance) = some superclass := by
  have keptThere (names : List String) (there : loose[distance]? = some names) :
      "super" ∉ names := kept names (List.mem_of_getElem? there)
  obtain ⟨reference, there, _, bound⟩ := fits.bound
    (fun scope here => ready_of_awake awake found here) keptThere (lt_of_nearest found)
  obtain ⟨value, held⟩ := Option.isSome_iff_exists.mp bound
  obtain ⟨superclass, rfl⟩ := classes reference value held
  refine ⟨superclass, Option.bind_eq_some_iff.mpr ⟨reference, there, held⟩, ?_⟩
  obtain ⟨less, rfl⟩ := List.getElem?_eq_some_iff.mp there
  rw [List.drop_eq_getElem_cons less]
  exact superclass?_of_cls held

end Environment

/-! ## Sights -/

/-- The visits of a survey are accepted against the distances of a run, and `this`
and `super` stand in classes at all of them. -/
structure Survey.Binds (survey : Survey) (distances : Distances) : Prop where
  accepted : ∀ visit, survey.visited visit → visit.Accepted distances
  guarded : ∀ visit, survey.visited visit → visit.Guarded

section Sights

variable {survey : Survey} {distances : Distances} {before : Watch} {steps : Nat}
variable {receiver : Option Receiver}

/-- Where `this` is read, it is the object of the receiver. -/
theorem Watch.Around.this_right (around : before.Around receiver) (noted : before.Sound)
    (binds : survey.Binds distances) {reference : Reference}
    (sound : Moment.Sound survey distances
      ⟨steps, .node (.expr (.this reference)), before.machine⟩) :
    Sighting.Right ⟨.this reference, receiver, before.machine⟩ := by
  obtain ⟨analysis, loose, visited, inside⟩ := sound.expr (by simp)
  have accepted := binds.accepted _ visited
  have guarded := binds.guarded _ visited
  obtain ⟨distance, given, found⟩ := accepted.this_bound guarded
  have awake (scope : Bindings Readiness) (member : scope ∈ analysis.scopes) :
      scope.get? "this" ≠ some .pending :=
    (guarded.receives (by simp)).awake scope member "this" Environment.not_ordinary_this
  have kept (names : List String) (member : names ∈ loose) : "this" ∉ names :=
    fun among => Environment.not_ordinary_this (guarded.loose names member "this" among)
  obtain ⟨object, held, receives⟩ := inside.fits.receiver noted.objects found awake kept
  refine ⟨_, around.holds.symm.trans receives, ?_⟩
  have named : reference.name.lexeme = "this" := accepted.placed
  rw [← inside.distances] at given
  change Run.read reference before.machine = _
  rw [Run.read_eq, given, named]
  change Run.orFail (before.machine.environment.lookupAt? _ _ _) _ _ = _
  rw [held]
  rfl

/-- One step behind another one that succeeds. -/
theorem bind_of_ok {ε σ α β : Type} {step : EStateM ε σ α} {next : α → EStateM ε σ β}
    {before middle : σ} {value : α} (ran : step before = .ok value middle) :
    (step >>= next) before = next value middle := by
  change EStateM.bind step next before = _
  unfold EStateM.bind
  rw [ran]

theorem superMethod_eq {machine : Machine} {reference : Reference} {distance : Nat}
    {superclass : Class} {object : Instance} (method : Token)
    (given : machine.distances.get? reference.id = some (distance + 1))
    (above : machine.environment.lookupAt? machine.store (distance + 1) "super" =
      some (.cls superclass))
    (held : machine.environment.lookupAt? machine.store distance "this" =
      some (.object object)) :
    superMethod reference method machine =
      (do
        let found ← Run.orFail (superclass.method? method.lexeme) (.propertyAt method)
        return .function (← found.bind object) : Run Value) machine := by
  have looked : Run.orFail (machine.distances.get? reference.id) (.variableAt reference.name)
      machine = .ok (distance + 1) machine := by
    rw [given]
    rfl
  refine (bind_of_ok looked).trans ?_
  simp only [above, held]

/-- Where a method of the superclass is asked for, it is the first of its name from
the superclass on, and it is bound to the object of the receiver. -/
theorem Watch.Around.super_right (around : before.Around receiver) (noted : before.Sound)
    (binds : survey.Binds distances) {reference : Reference} {method : Token}
    (sound : Moment.Sound survey distances
      ⟨steps, .node (.expr (.super reference method)), before.machine⟩) :
    Sighting.Right ⟨.super reference method, receiver, before.machine⟩ := by
  obtain ⟨analysis, loose, visited, inside⟩ := sound.expr (by simp)
  have guarded := binds.guarded _ visited
  obtain ⟨distance, given, found, foundAbove⟩ := (binds.accepted _ visited).super_bound guarded
  have awake (name : String) (keyword : ¬ IsOrdinaryName name) (scope : Bindings Readiness)
      (member : scope ∈ analysis.scopes) : scope.get? name ≠ some .pending :=
    (guarded.receives (by simp)).awake scope member name keyword
  have kept (name : String) (keyword : ¬ IsOrdinaryName name) (names : List String)
      (member : names ∈ loose) : name ∉ names :=
    fun among => keyword (guarded.loose names member name among)
  obtain ⟨object, held, receives⟩ := inside.fits.receiver noted.objects found
    (awake "this" Environment.not_ordinary_this) (kept "this" Environment.not_ordinary_this)
  obtain ⟨superclass, above, next⟩ := inside.fits.superclass noted.classes foundAbove
    (awake "super" Environment.not_ordinary_super) (kept "super" Environment.not_ordinary_super)
  rw [← inside.distances] at given
  exact ⟨_, around.holds.symm.trans receives, superclass, next,
    superMethod_eq method given above held⟩

end Sights

end Lox
