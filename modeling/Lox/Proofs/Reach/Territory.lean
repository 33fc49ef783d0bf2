import Lox.Proofs.Evaluation.Operators
import Mathlib.Logic.Function.Basic
import Mathlib.Logic.Relation

/-!
# What can be reached

Scopes and instances refer to each other through the values in them. A scope is
only ever referred to by an environment, which lists the scopes around it as
well, so the way outward needs no step of its own. Likewise an object comes with
its class.

A territory is a set of places that nothing inside of it refers out of. It
includes the places that nothing has been put in yet. A run that starts inside
of a territory never leaves it, and what lies outside stays as it is.
-/

namespace Lox

/-! ## Places and the ways between them -/

/-- A place in the store: a scope or the fields of an instance. -/
inductive Location where
  | scope (reference : ScopeRef)
  | object (reference : InstanceRef)
  deriving DecidableEq

/-- What a value holds that refers to the store. -/
inductive Part where
  | environment (environment : Environment)
  | object (object : Instance)

/-- The places that a part refers to by itself. -/
def Part.Mentions : Part → Location → Prop
  | .environment scopes, .scope reference => reference ∈ scopes
  | .object found, .object reference => reference = found.reference
  | _, _ => False

namespace Store

/-- What is at a place. -/
def contents (store : Store) : Location → Bindings Value
  | .scope reference => store.scope reference
  | .object reference => store.fieldsOf reference

/-- A place is there once it has been added. -/
def Has (store : Store) : Location → Prop
  | .scope reference => reference.index < store.scopes.size
  | .object reference => reference.index < store.fields.size

instance (store : Store) : (location : Location) → Decidable (store.Has location)
  | .scope reference => inferInstanceAs (Decidable (reference.index < store.scopes.size))
  | .object reference => inferInstanceAs (Decidable (reference.index < store.fields.size))

/-- Nothing is at a place that is not there. -/
theorem contents_of_not_has {store : Store} {location : Location} (absent : ¬ store.Has location) :
    store.contents location = .empty := by
  cases location with
  | scope reference =>
      simp only [Has, Nat.not_lt] at absent
      simp [contents, scope, Array.getElem?_eq_none absent]
  | object reference =>
      simp only [Has, Nat.not_lt] at absent
      simp [contents, fieldsOf, Array.getElem?_eq_none absent]

theorem contents_define (store : Store) (reference : ScopeRef) (name : String) (value : Value)
    (location : Location) :
    (store.define reference name value).contents location =
      if location = .scope reference ∧ store.Has location then
        (store.contents location).set name value
      else store.contents location := by
  cases location with
  | object other => simp [contents, fieldsOf]
  | scope other =>
      simp only [contents, scope_define, Location.scope.injEq, Has]
      by_cases same : other = reference
      · simp [same]
      · simp [same]

theorem contents_setField (store : Store) (reference : InstanceRef) (name : String)
    (value : Value) (location : Location) :
    (store.setField reference name value).contents location =
      if location = .object reference ∧ store.Has location then
        (store.contents location).set name value
      else store.contents location := by
  cases location with
  | scope other => simp [contents, scope]
  | object other =>
      simp only [contents, fieldsOf_setField, Location.object.injEq, Has]
      by_cases same : other = reference
      · simp [same]
      · simp [same]

theorem contents_addScope (store : Store) (bindings : Bindings Value) (location : Location) :
    (store.addScope bindings).2.contents location =
      if location = .scope ⟨store.scopes.size⟩ then bindings else store.contents location := by
  cases location with
  | object other => simp [contents, fieldsOf, addScope]
  | scope other =>
      obtain ⟨index⟩ := other
      simp [contents, scope_addScope]

theorem contents_addInstance (store : Store) (location : Location) :
    store.addInstance.2.contents location =
      if location = .object ⟨store.fields.size⟩ then .empty else store.contents location := by
  cases location with
  | scope other => simp [contents, scope, addInstance]
  | object other =>
      obtain ⟨index⟩ := other
      simp [contents, fieldsOf_addInstance]

@[simp] theorem has_define (store : Store) (reference : ScopeRef) (name : String) (value : Value)
    (location : Location) :
    (store.define reference name value).Has location ↔ store.Has location := by
  cases location <;> simp [Has]

@[simp] theorem has_setField (store : Store) (reference : InstanceRef) (name : String)
    (value : Value) (location : Location) :
    (store.setField reference name value).Has location ↔ store.Has location := by
  cases location <;> simp [Has, setField]

theorem has_addScope {store : Store} {location : Location} (has : store.Has location)
    (bindings : Bindings Value) : (store.addScope bindings).2.Has location := by
  cases location with
  | object reference => exact has
  | scope reference =>
      simp only [Has, addScope, Array.size_push] at has ⊢
      omega

theorem has_addInstance {store : Store} {location : Location} (has : store.Has location) :
    store.addInstance.2.Has location := by
  cases location with
  | scope reference => exact has
  | object reference =>
      simp only [Has, addInstance, Array.size_push] at has ⊢
      omega

/-- A new scope is there. -/
theorem has_added (store : Store) (bindings : Bindings Value) :
    (store.addScope bindings).2.Has (.scope ⟨store.scopes.size⟩) := by
  simp [Has, addScope]

/-- A new instance is there. -/
theorem has_addedInstance (store : Store) :
    store.addInstance.2.Has (.object ⟨store.fields.size⟩) := by
  simp [Has, addInstance]

end Store

/-- A function holds the scopes around its declaration. -/
def Closure.Has (closure : Closure) (part : Part) : Prop :=
  part = .environment closure.environment

/-- A class holds what its methods hold and those that it inherits. -/
def Class.Has (cls : Class) (part : Part) : Prop :=
  ∃ layer ∈ cls.chain, ∃ name method, layer.methods.get? name = some method ∧ method.Has part

/-- A value holds the scopes around a function, itself if it is an object, and
what its class holds. -/
def Value.Has : Value → Part → Prop
  | .function closure, part => closure.Has part
  | .cls found, part => found.Has part
  | .object found, part => part = .object found ∨ found.cls.Has part
  | .nil, _ | .bool _, _ | .number _, _ | .string _, _ | .native _, _ => False

/-- What can be called, as a value. -/
def Callable.value : Callable → Value
  | .native host => .native host
  | .function closure => .function closure
  | .cls found => .cls found

/-- A value goes with how a statement ends if it leaves the function. -/
def Flow.values : Flow → List Value
  | .normal => []
  | .returned value => [value]

theorem Class.has_of_method {cls : Class} {name : String} {method : Closure}
    (found : cls.method? name = some method) {part : Part} (has : method.Has part) :
    cls.Has part := by
  obtain ⟨layer, member, held⟩ := List.exists_of_findSome?_eq_some found
  exact ⟨layer, member, name, method, held, has⟩

/-- A class holds what its own methods hold and what its superclass holds. -/
theorem Class.has_extend {own : ClassLayer} {superclass : Option Class} {part : Part}
    (has : (Class.extend own superclass).Has part) :
    (∃ name method, own.methods.get? name = some method ∧ method.Has part) ∨
      ∃ found, superclass = some found ∧ found.Has part := by
  obtain ⟨layer, member, held⟩ := has
  cases superclass with
  | none =>
      obtain rfl := List.mem_singleton.mp member
      exact .inl held
  | some found =>
      cases member with
      | head => exact .inl held
      | tail _ inherited => exact .inr ⟨found, rfl, layer, inherited, held⟩

theorem Value.IsPlain.not_has {value : Value} (plain : value.IsPlain) (part : Part) :
    ¬ value.Has part := by
  intro has
  cases value with
  | function | cls | object => exact plain
  | nil | bool | number | string | native => exact has

theorem Value.value_of_callable? {value : Value} {callable : Callable}
    (found : value.callable? = some callable) : callable.value = value := by
  cases value with
  | native | function | cls =>
      cases found
      rfl
  | nil | bool | number | string | object => nomatch found

/-- A host hands out nothing but what it is given. -/
def Host.Conservative (host : Host) : Prop :=
  ∀ function calls arguments value, host function calls arguments = .ok value →
    ∀ part, value.Has part → ∃ argument ∈ arguments, argument.Has part

/-- One place leads to another if a value in the first refers to the second. -/
def Store.Leads (store : Store) (one other : Location) : Prop :=
  ∃ name value part, (store.contents one).get? name = some value ∧ value.Has part ∧
    part.Mentions other

namespace Machine

/-- What evaluation starts from: the globals, the scopes around it and the
values given to it. -/
def Root (machine : Machine) (given : List Value) (location : Location) : Prop :=
  location = .scope globalScope ∨
    (Part.environment machine.environment).Mentions location ∨
      ∃ value ∈ given, ∃ part, value.Has part ∧ part.Mentions location

/-- A place is reached by going from one place to the next. -/
def Reaches (machine : Machine) (given : List Value) (location : Location) : Prop :=
  ∃ root, machine.Root given root ∧ Relation.ReflTransGen machine.store.Leads root location

end Machine

/-! ## What never changes about scopes and instances -/

/-- The scopes around each scope and the class of each instance. -/
structure Shape where
  enclosing : ScopeRef → Environment
  cls : InstanceRef → Class

namespace Shape

/-- An environment goes outward from each scope to the scopes around it. -/
def Links (shape : Shape) : Environment → Prop
  | [] => True
  | reference :: outer => shape.enclosing reference = outer ∧ shape.Links outer

/-- A part refers to places that are there, in the way they are. -/
def Fits (shape : Shape) (store : Store) : Part → Prop
  | .environment environment =>
      shape.Links environment ∧ ∀ reference ∈ environment, store.Has (.scope reference)
  | .object object =>
      shape.cls object.reference = object.cls ∧ store.Has (.object object.reference)

/-- Environments that agree on a scope agree on all scopes around it. -/
theorem Links.tail {shape : Shape} {front : List ScopeRef} {outer : Environment}
    (links : shape.Links (front ++ outer)) : shape.Links outer := by
  induction front with
  | nil => exact links
  | cons first rest ih => exact ih links.2

theorem Links.imp {shape other : Shape} {environment : Environment}
    (same : ∀ reference ∈ environment, other.enclosing reference = shape.enclosing reference)
    (links : shape.Links environment) : other.Links environment := by
  induction environment with
  | nil => trivial
  | cons reference outer ih =>
      obtain ⟨here, farther⟩ := links
      obtain ⟨first, rest⟩ := List.forall_mem_cons.mp same
      exact ⟨first.trans here, ih rest farther⟩

end Shape

/-- A machine in which every scope has one environment and every instance one
class, and nothing refers to a place that is not there. -/
structure Machine.Shaped (shape : Shape) (machine : Machine) : Prop where
  environment : shape.Fits machine.store (.environment machine.environment)
  stored : ∀ location name value, (machine.store.contents location).get? name = some value →
    ∀ part, value.Has part → shape.Fits machine.store part

/-! ## Territories -/

/-- A set of places, beside what never changes about all places. -/
structure Territory extends Shape where
  covers : Location → Prop

namespace Territory

variable {territory grown later : Territory} {before middle after : Store} {part : Part}

/-- A part that a run may come by: it refers to nothing outside. -/
structure Allows (territory : Territory) (store : Store) (part : Part) : Prop where
  fits : territory.Fits store part
  inside : ∀ location, part.Mentions location → territory.covers location

/-- All parts of something are allowed. -/
def Holds (territory : Territory) (store : Store) (parts : Part → Prop) : Prop :=
  ∀ part, parts part → territory.Allows store part

/-- From one store to a later one. What was there keeps its shape, and outside of
the territory its contents. -/
structure Grows (territory : Territory) (before : Store) (grown : Territory) (after : Store) :
    Prop where
  covers : grown.covers = territory.covers
  has : ∀ location, before.Has location → after.Has location
  enclosing : ∀ reference, before.Has (.scope reference) →
    grown.enclosing reference = territory.enclosing reference
  cls : ∀ reference, before.Has (.object reference) → grown.cls reference = territory.cls reference
  untouched : ∀ location, ¬ territory.covers location →
    after.contents location = before.contents location

theorem Grows.refl (territory : Territory) (store : Store) :
    territory.Grows store territory store :=
  ⟨rfl, fun _ has => has, fun _ _ => rfl, fun _ _ => rfl, fun _ _ => rfl⟩

theorem Grows.trans (front : territory.Grows before grown middle)
    (back : grown.Grows middle later after) : territory.Grows before later after := by
  constructor
  · exact back.covers.trans front.covers
  · exact fun location has => back.has _ (front.has _ has)
  · exact fun reference has =>
      (back.enclosing _ (front.has _ has)).trans (front.enclosing _ has)
  · exact fun reference has => (back.cls _ (front.has _ has)).trans (front.cls _ has)
  · intro location outside
    rw [back.untouched location (front.covers ▸ outside), front.untouched location outside]

theorem Grows.fits (grows : territory.Grows before grown after)
    (fits : territory.Fits before part) : grown.Fits after part := by
  cases part with
  | environment environment =>
      obtain ⟨links, there⟩ := fits
      exact ⟨links.imp fun reference member => grows.enclosing _ (there _ member),
        fun reference member => grows.has _ (there _ member)⟩
  | object object =>
      obtain ⟨same, there⟩ := fits
      exact ⟨(grows.cls _ there).trans same, grows.has _ there⟩

theorem Allows.grow (allows : territory.Allows before part)
    (grows : territory.Grows before grown after) : grown.Allows after part :=
  ⟨grows.fits allows.fits, grows.covers ▸ allows.inside⟩

theorem Holds.grow {parts : Part → Prop} (holds : territory.Holds before parts)
    (grows : territory.Grows before grown after) : grown.Holds after parts :=
  fun part has => (holds part has).grow grows

theorem holds_of_isPlain {value : Value} (plain : value.IsPlain) :
    territory.Holds before value.Has :=
  fun part has => (plain.not_has part has).elim

theorem Holds.of_method {cls : Class} {name : String} {method : Closure}
    (holds : territory.Holds before cls.Has) (found : cls.method? name = some method) :
    territory.Holds before method.Has :=
  fun part has => holds part (cls.has_of_method found has)

theorem Holds.of_object {object : Instance}
    (holds : territory.Holds before (Value.object object).Has) :
    territory.Holds before object.cls.Has :=
  fun part has => holds part (.inr has)

/-- The territory after a scope has been added inside an environment. -/
def withScope (territory : Territory) (store : Store) (outer : Environment) : Territory :=
  { territory with enclosing := Function.update territory.enclosing ⟨store.scopes.size⟩ outer }

/-- The territory after an instance of a class has been added. -/
def withInstance (territory : Territory) (store : Store) (cls : Class) : Territory :=
  { territory with cls := Function.update territory.cls ⟨store.fields.size⟩ cls }

theorem grows_addScope (territory : Territory) (store : Store) (outer : Environment)
    (bindings : Bindings Value) (covers : territory.covers (.scope ⟨store.scopes.size⟩)) :
    territory.Grows store (territory.withScope store outer) (store.addScope bindings).2 := by
  refine ⟨rfl, fun _ has => Store.has_addScope has _, ?_, fun _ _ => rfl, ?_⟩
  · intro reference has
    apply Function.update_of_ne
    rintro rfl
    exact Nat.lt_irrefl _ has
  · intro location outside
    rw [Store.contents_addScope, if_neg]
    rintro rfl
    exact outside covers

theorem grows_addInstance (territory : Territory) (store : Store) (cls : Class)
    (covers : territory.covers (.object ⟨store.fields.size⟩)) :
    territory.Grows store (territory.withInstance store cls) store.addInstance.2 := by
  refine ⟨rfl, fun _ has => Store.has_addInstance has, fun _ _ => rfl, ?_, ?_⟩
  · intro reference has
    apply Function.update_of_ne
    rintro rfl
    exact Nat.lt_irrefl _ has
  · intro location outside
    rw [Store.contents_addInstance, if_neg]
    rintro rfl
    exact outside covers

end Territory

/-- A machine inside of a territory. -/
structure Machine.Confined (territory : Territory) (machine : Machine) : Prop where
  shaped : machine.Shaped territory.toShape
  globals : territory.covers (.scope globalScope)
  environment : ∀ reference ∈ machine.environment, territory.covers (.scope reference)
  fresh : ∀ location, ¬ machine.store.Has location → territory.covers location
  closed : ∀ one other, territory.covers one → machine.store.Leads one other →
    territory.covers other
  host : machine.host.Conservative

/-- From one machine to another one on the way through a run. -/
structure Machine.Onward (before : Machine) (territory grown : Territory) (after : Machine) :
    Prop where
  confined : after.Confined grown
  grows : territory.Grows before.store grown after.store
  environment : after.environment = before.environment

namespace Machine

variable {territory grown later : Territory} {before middle after machine : Machine}

theorem Confined.onward (confined : machine.Confined territory) :
    machine.Onward territory territory machine :=
  ⟨confined, .refl _ _, rfl⟩

theorem Onward.trans (front : before.Onward territory grown middle)
    (back : middle.Onward grown later after) : before.Onward territory later after :=
  ⟨back.confined, front.grows.trans back.grows, back.environment.trans front.environment⟩

namespace Confined

/-- The scopes around the point of evaluation are allowed. -/
theorem around (confined : machine.Confined territory) :
    territory.Allows machine.store (.environment machine.environment) := by
  refine ⟨confined.shaped.environment, ?_⟩
  intro location mentions
  cases location with
  | scope reference => exact confined.environment reference mentions
  | object reference => nomatch mentions

/-- What is found at a place inside is allowed. -/
theorem held (confined : machine.Confined territory) {location : Location}
    (covers : territory.covers location) {name : String} {value : Value}
    (found : (machine.store.contents location).get? name = some value) :
    territory.Holds machine.store value.Has := fun part has =>
  ⟨confined.shaped.stored _ _ _ found part has, fun other mentions =>
    confined.closed location other covers ⟨name, value, part, found, has, mentions⟩⟩

/-- Neither the sink nor the counters have to do with a territory, nor do the
distances. -/
theorem of_eq (confined : before.Confined territory) (store : after.store = before.store)
    (environment : after.environment = before.environment) (host : after.host = before.host) :
    before.Onward territory territory after := by
  have shaped : after.Shaped territory.toShape := by
    constructor
    · rw [store, environment]
      exact confined.shaped.environment
    · rw [store]
      exact confined.shaped.stored
  exact ⟨{ shaped,
           globals := confined.globals
           environment := environment ▸ confined.environment
           fresh := store ▸ confined.fresh
           closed := store ▸ confined.closed
           host := host ▸ confined.host }, store ▸ .refl _ _, environment⟩

/-- A machine moves into an environment that is allowed. -/
theorem enter (confined : machine.Confined territory) {environment : Environment}
    (allows : territory.Allows machine.store (.environment environment)) :
    Confined territory { machine with environment := environment } := by
  exact { confined with
    shaped := ⟨allows.fits, confined.shaped.stored⟩
    environment := fun reference member => allows.inside (.scope reference) member }

/-- A change of the store stays inside of a territory if all that is new is
allowed and stands inside. -/
theorem change (confined : before.Confined territory) {store : Store}
    (grows : territory.Grows before.store grown store)
    (new : ∀ location name value, (store.contents location).get? name = some value →
      (before.store.contents location).get? name = some value ∨ grown.Holds store value.Has) :
    before.Onward territory grown { before with store := store } := by
  have shaped : Machine.Shaped grown.toShape { before with store := store } := by
    refine ⟨grows.fits confined.shaped.environment, ?_⟩
    intro location name value found part has
    obtain old | allowed := new location name value found
    · exact grows.fits (confined.shaped.stored _ _ _ old part has)
    · exact (allowed part has).fits
  refine ⟨{ shaped,
            globals := grows.covers ▸ confined.globals
            environment := grows.covers ▸ confined.environment
            fresh := ?fresh
            closed := ?closed
            host := confined.host }, grows, rfl⟩
  case fresh =>
    intro location absent
    rw [grows.covers]
    exact confined.fresh _ fun has => absent (grows.has _ has)
  case closed =>
    rintro one other covers ⟨name, value, part, found, has, mentions⟩
    obtain old | allowed := new one name value found
    · rw [grows.covers] at covers ⊢
      exact confined.closed one other covers ⟨name, value, part, old, has, mentions⟩
    · exact (allowed part has).inside other mentions

end Confined

end Machine

end Lox
