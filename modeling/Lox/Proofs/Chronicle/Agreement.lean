import Lox.Proofs.Chronicle.Basic
import Lox.Proofs.Evaluation.Survey

/-!
# The present agrees with the past

Whatever has happened still shows in the state of the machine: a bound method still
holds its object, a class still has the methods that it was declared with, and every
property has the value stored in it last. And the machine holds nothing that has not
come into being before.
-/

namespace Lox

/-! ## What the past says about the present -/

/-- A function as classes declare it. Only `init` initializes. -/
structure Closure.IsMethod (method : Closure) : Prop where
  placed : method.declaration.Placed
  initializes : method.isInitializer = decide (method.name = Class.initializerName)

/-- The methods of a class are the last declarations of their names. -/
structure ClassLayer.HasMethods (layer : ClassLayer) (methods : List FunctionDecl) : Prop where
  declarations : ∀ name, (layer.methods.get? name).map Closure.declaration =
    FunctionDecl.lastNamed? methods name
  members : ∀ name method, layer.methods.get? name = some method → method.IsMethod

/-- A function that holds an object as `this` in a scope of its own. -/
structure Closure.IsBound (store : Store) (closure : Closure) (object : Instance) : Prop
    extends closure.IsMethod where
  receiver : ∃ scope outer, closure.environment = scope :: outer ∧
    scope.index < store.scopes.size ∧ (store.scope scope).get? "this" = some (.object object)

/-- What an occurrence of the past says about the store. -/
def Occurrence.Holds (past : List Occurrence) (store : Store) : Occurrence → Prop
  | .moment _ => True
  | .function closure => closure.declaration.Placed
  | .declared cls methods => cls.own.HasMethods methods ∧
      ∀ superclass, cls.superclass? = some superclass → (Value.cls superclass).Arisen past
  | .created object => object.reference.index < store.fields.size ∧
      (Value.cls object.cls).Arisen past
  | .bound closure object => closure.IsBound store object ∧ (Value.object object).Arisen past
  | .stored object _ value => (Value.object object).Arisen past ∧ value.Arisen past

/-- The state of the machine agrees with the past. -/
structure Chronicle.Agrees (chronicle : Chronicle) : Prop where
  holds : ∀ occurrence ∈ chronicle.past, occurrence.Holds chronicle.past chronicle.machine.store
  held : ∀ scope name value, (chronicle.machine.store.scope scope).get? name = some value →
    value.Arisen chronicle.past
  fields : ∀ reference name, (chronicle.machine.store.fieldsOf reference).get? name =
    Occurrence.lastStored chronicle.past reference name
  host : ∀ function calls arguments value,
    chronicle.machine.host function calls arguments = .ok value → value.IsPlain

/-! ## Values -/

section Values

variable {past later : List Occurrence} {value : Value}

theorem Value.IsPlain.arisen (plain : value.IsPlain) (past : List Occurrence) :
    value.Arisen past := by
  cases value with
  | function | cls | object => exact plain.elim
  | _ => trivial

/-- What has arisen stays. -/
theorem Value.Arisen.mono (arisen : value.Arisen past) (among : past ⊆ later) :
    value.Arisen later := by
  cases value with
  | function closure => exact arisen.imp (@among _) fun ⟨holder, bound⟩ => ⟨holder, among bound⟩
  | cls found =>
      obtain ⟨methods, declared⟩ := arisen
      exact ⟨methods, among declared⟩
  | object found => exact among arisen
  | _ => trivial

/-- What has happened still holds in a store that has grown. -/
theorem Occurrence.Holds.grow {occurrence : Occurrence} {before after : Store}
    (holds : occurrence.Holds past before) (among : past ⊆ later)
    (growth : before.Extends after) (size : before.fields.size ≤ after.fields.size) :
    occurrence.Holds later after := by
  cases occurrence with
  | moment => trivial
  | function => exact holds
  | declared cls methods =>
      exact ⟨holds.1, fun superclass inherits => (holds.2 superclass inherits).mono among⟩
  | created object => exact ⟨Nat.lt_of_lt_of_le holds.1 size, holds.2.mono among⟩
  | bound closure object =>
      obtain ⟨⟨method, scope, outer, around, inStore, held⟩, arisen⟩ := holds
      refine ⟨⟨method, scope, outer, around, Nat.lt_of_lt_of_le inStore growth.size, ?_⟩,
        arisen.mono among⟩
      rw [growth.keywords scope "this" inStore fun ordinary => ordinary.1 rfl, held]
  | stored object name value => exact ⟨holds.1.mono among, holds.2.mono among⟩

/-- A class that is declared has its methods and inherits from what is there already. -/
theorem Occurrence.holds_declared {layer : ClassLayer} {methods : List FunctionDecl}
    (has : layer.HasMethods methods) (store : Store) {superclass : Option Class}
    (arisen : ∀ found, superclass = some found → (Value.cls found).Arisen past) :
    Occurrence.Holds past store (.declared (.extend layer superclass) methods) := by
  refine ⟨?_, fun found inherits => ?_⟩
  · cases superclass <;> exact has
  · rw [Class.superclass?_extend] at inherits
    exact arisen found inherits

end Values

/-! ## Changes of the machine -/

namespace Chronicle.Agrees

variable {machine other : Machine} {past : List Occurrence}

/-- Only the store and the host matter. -/
theorem of_same (agrees : Agrees ⟨machine, past⟩) (store : other.store = machine.store)
    (host : other.host = machine.host) : Agrees ⟨other, past⟩ := by
  obtain ⟨holds, held, fields, plain⟩ := agrees
  dsimp only at holds held fields plain
  rw [← store] at holds held fields
  rw [← host] at plain
  exact ⟨holds, held, fields, plain⟩

/-- A store that has grown and holds nothing that has not arisen, with the same
fields. -/
theorem change (agrees : Agrees ⟨machine, past⟩) {store : Store}
    (growth : machine.store.Extends store) (size : machine.store.fields.size ≤ store.fields.size)
    (held : ∀ scope name value, (store.scope scope).get? name = some value → value.Arisen past)
    (fields : ∀ reference name,
      (store.fieldsOf reference).get? name = (machine.store.fieldsOf reference).get? name) :
    Agrees ⟨{ machine with store := store }, past⟩ := by
  constructor
  · intro occurrence happened
    exact (agrees.holds occurrence happened).grow (List.Subset.refl _) growth size
  · exact held
  · exact fun reference name => (fields reference name).trans (agrees.fields reference name)
  · exact agrees.host

theorem define (agrees : Agrees ⟨machine, past⟩) (scope : ScopeRef) {name : String}
    (ordinary : IsOrdinaryName name) {value : Value} (arisen : value.Arisen past) :
    Agrees ⟨{ machine with store := machine.store.define scope name value }, past⟩ := by
  apply agrees.change (.define _ scope ordinary value) (Nat.le_refl _)
  · intro other text found held
    rw [Store.scope_define] at held
    split at held
    · rw [Bindings.get?_set] at held
      split at held
      · cases held
        exact arisen
      · exact agrees.held _ _ _ held
    · exact agrees.held _ _ _ held
  · exact fun _ _ => rfl

theorem addScope (agrees : Agrees ⟨machine, past⟩) {bindings : Bindings Value}
    (arisen : ∀ name value, bindings.get? name = some value → value.Arisen past) :
    Agrees ⟨{ machine with store := (machine.store.addScope bindings).2 }, past⟩ := by
  apply agrees.change (.addScope _ bindings) (Nat.le_refl _)
  · intro other text found held
    rw [Store.scope_addScope] at held
    split at held
    · exact arisen _ _ held
    · exact agrees.held _ _ _ held
  · exact fun _ _ => rfl

theorem addInstance (agrees : Agrees ⟨machine, past⟩) :
    Agrees ⟨{ machine with store := machine.store.addInstance.2 }, past⟩ := by
  have growth : machine.store.Extends machine.store.addInstance.2 := .of_scopes rfl
  apply agrees.change growth (by simp [Store.addInstance])
  · exact agrees.held
  · intro reference name
    rw [Store.fieldsOf_addInstance]
    split
    · next new =>
        have absent : machine.store.fieldsOf reference = .empty := by simp [Store.fieldsOf, new]
        rw [absent]
    · rfl

/-- Something happens that stores nothing and that holds. -/
theorem add {occurrence : Occurrence} (agrees : Agrees ⟨machine, past⟩)
    (silent : ∀ reference name, occurrence.storedIn? reference name = none)
    (holds : occurrence.Holds past machine.store) :
    Agrees ⟨machine, past ++ [occurrence]⟩ := by
  have among : past ⊆ past ++ [occurrence] := List.subset_append_left _ _
  have grow {other : Occurrence} (holds : other.Holds past machine.store) :=
    holds.grow among (.refl _) (Nat.le_refl _)
  constructor
  · intro other happened
    rcases List.mem_append.mp happened with before | new
    · exact grow (agrees.holds other before)
    · cases List.mem_singleton.mp new
      exact grow holds
  · exact fun scope name value held => (agrees.held scope name value held).mono among
  · intro reference name
    rw [Occurrence.lastStored_concat, silent, Option.none_or]
    exact agrees.fields reference name
  · exact agrees.host

/-- A value is stored in a property of an object. -/
theorem setField (agrees : Agrees ⟨machine, past⟩) {object : Instance} (name : String)
    {value : Value} (created : .created object ∈ past) (arisen : value.Arisen past) :
    Agrees ⟨{ machine with store := machine.store.setField object.reference name value },
      past ++ [.stored object name value]⟩ := by
  have among : past ⊆ past ++ [.stored object name value] := List.subset_append_left _ _
  have size : machine.store.fields.size ≤
      (machine.store.setField object.reference name value).fields.size := by
    simp [Store.setField]
  constructor
  · intro other happened
    rcases List.mem_append.mp happened with before | new
    · exact (agrees.holds other before).grow among (.of_scopes rfl) size
    · cases List.mem_singleton.mp new
      exact ⟨among created, arisen.mono among⟩
  · exact fun scope text found held => (agrees.held scope text found held).mono among
  · intro reference text
    have inStore : object.reference.index < machine.store.fields.size :=
      (agrees.holds _ created).1
    change ((machine.store.setField object.reference name value).fieldsOf reference).get? text = _
    rw [Occurrence.lastStored_concat, Store.fieldsOf_setField, Occurrence.storedIn?,
      ← agrees.fields reference text]
    by_cases same : object.reference = reference
    · subst same
      rw [if_pos ⟨rfl, inStore⟩, Bindings.get?_set]
      by_cases named : name = text <;> simp [named]
    · have different : ¬ reference = object.reference := Ne.symm same
      simp [same, different]
  · exact agrees.host

end Chronicle.Agrees

/-! ## Values that the machine holds -/

/-- A value that a variable or a property has. -/
def Machine.Holds (machine : Machine) (value : Value) : Prop :=
  (∃ scope name, (machine.store.scope scope).get? name = some value) ∨
    ∃ reference name, (machine.store.fieldsOf reference).get? name = some value

section Holding

variable {machine : Machine} {past : List Occurrence}

/-- A value that is read in a property has arisen. -/
theorem Chronicle.Agrees.arisen_of_field (agrees : Chronicle.Agrees ⟨machine, past⟩)
    {reference : InstanceRef} {name : String} {value : Value}
    (held : (machine.store.fieldsOf reference).get? name = some value) : value.Arisen past := by
  have stored := (agrees.fields reference name).symm.trans held
  obtain ⟨occurrence, happened, stores⟩ := List.exists_of_findSome?_eq_some stored
  cases occurrence with
  | stored object other found =>
      rw [Occurrence.storedIn?] at stores
      split at stores
      · cases stores
        exact (agrees.holds _ (List.mem_reverse.mp happened)).2
      · cases stores
  | _ => cases stores

/-- The machine holds nothing that has not come into being. -/
theorem Chronicle.Agrees.arisen_of_holds (agrees : Chronicle.Agrees ⟨machine, past⟩) {value : Value}
    (holds : machine.Holds value) : value.Arisen past := by
  rcases holds with ⟨scope, name, held⟩ | ⟨reference, name, held⟩
  · exact agrees.held scope name value held
  · exact agrees.arisen_of_field held

end Holding

/-! ## Properties -/

theorem Run.get_bind {α : Type} (next : Machine → Run α) (machine : Machine) :
    (get >>= next) machine = next machine machine := rfl

namespace Instance

variable {object : Instance} {name : Token} {machine : Machine}

theorem property_of_set {value : Value}
    (held : (machine.store.fieldsOf object.reference).get? name.lexeme = some value) :
    object.property name machine = .ok value machine := by
  unfold property
  rw [Run.get_bind, held]
  rfl

theorem property_of_unset
    (unset : (machine.store.fieldsOf object.reference).get? name.lexeme = none) :
    object.property name machine =
      (do
        let method ← Run.orFail (object.cls.method? name.lexeme) (.propertyAt name)
        return Value.function (← method.bind object) : Run Value) machine := by
  unfold property
  rw [Run.get_bind, unset]

end Instance

/-! ## Classes -/

/-- The class bodies of the past that a class and those it inherits from come from, the
nearest first. -/
inductive Class.ComesFrom (past : List Occurrence) : Class → List (List FunctionDecl) → Prop where
  | alone {cls : Class} {body : List FunctionDecl} (declared : .declared cls body ∈ past)
      (inherits : cls.superclass? = none) : ComesFrom past cls [body]
  | inherits {cls superclass : Class} {body : List FunctionDecl} {bodies : List (List FunctionDecl)}
      (declared : .declared cls body ∈ past) (inherits : cls.superclass? = some superclass)
      (rest : ComesFrom past superclass bodies) : ComesFrom past cls (body :: bodies)

section Classes

variable {machine : Machine} {past : List Occurrence}

/-- A class that has arisen comes from class bodies, and its methods are the last
declarations of their names in the nearest body that has some. -/
theorem Chronicle.Agrees.comesFrom (agrees : Chronicle.Agrees ⟨machine, past⟩) {cls : Class}
    (arisen : (Value.cls cls).Arisen past) :
    ∃ bodies, cls.ComesFrom past bodies ∧
      (∀ name, (cls.method? name).map Closure.declaration =
        bodies.findSome? fun body => FunctionDecl.lastNamed? body name) ∧
      ∀ name method, cls.method? name = some method → method.IsMethod := by
  obtain ⟨own, inherited⟩ := cls
  induction inherited generalizing own with
  | nil =>
      obtain ⟨body, declared⟩ := arisen
      obtain ⟨has, -⟩ := agrees.holds _ declared
      refine ⟨[body], .alone declared rfl, fun name => ?_, fun name method found => ?_⟩
      · have same := has.declarations name
        simp only [Class.method?, Class.chain, List.findSome?_singleton]
        exact same
      · simp only [Class.method?, Class.chain, List.findSome?_singleton] at found
        exact has.members name method found
  | cons next rest ih =>
      obtain ⟨body, declared⟩ := arisen
      obtain ⟨has, inherits⟩ := agrees.holds _ declared
      obtain ⟨bodies, comesFrom, methods, members⟩ := ih next (inherits ⟨next, rest⟩ rfl)
      refine ⟨body :: bodies, .inherits declared rfl comesFrom, fun name => ?_,
        fun name method found => ?_⟩
      · rw [List.findSome?_cons, ← methods name, ← has.declarations name, Class.method?_eq]
        simp only [Class.superclass?, Option.bind_some]
        cases own.methods.get? name <;> rfl
      · rw [Class.method?_eq] at found
        simp only [Class.superclass?, Option.bind_some] at found
        cases here : own.methods.get? name with
        | none =>
            rw [here, Option.none_or] at found
            exact members name method found
        | some first =>
            rw [here, Option.some_or] at found
            cases found
            exact has.members name method here

/-- A method that a class has is one that a class declares. -/
theorem Chronicle.Agrees.isMethod (agrees : Chronicle.Agrees ⟨machine, past⟩) {cls : Class}
    (arisen : (Value.cls cls).Arisen past) {name : String} {method : Closure}
    (found : cls.method? name = some method) : method.IsMethod := by
  obtain ⟨bodies, -, -, methods⟩ := agrees.comesFrom arisen
  exact methods name method found

/-- A class has its methods under their own names. -/
theorem Chronicle.Agrees.name_of_method? (agrees : Chronicle.Agrees ⟨machine, past⟩) {cls : Class}
    (arisen : (Value.cls cls).Arisen past) {name : String} {method : Closure}
    (found : cls.method? name = some method) : method.name = name := by
  obtain ⟨bodies, -, declarations, -⟩ := agrees.comesFrom arisen
  have declared := declarations name
  rw [found] at declared
  obtain ⟨body, -, last⟩ := List.exists_of_findSome?_eq_some declared.symm
  exact FunctionDecl.name_of_lastNamed? last

end Classes

end Lox
