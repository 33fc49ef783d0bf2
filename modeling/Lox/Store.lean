import Lox.Value.Basic

/-!
# The store

What changes while a program runs: the values that names have in each scope, and
the fields of each instance. Scopes and instances are only ever added, so a
reference stays good for ever.

A scope does not know the scopes around it. That is part of an environment, the
list of scopes around a point, which never changes once it exists. Lookups come
in two forms: walking outward to the nearest scope that has the name, and going
straight to the scope at a known distance.
-/

namespace Lox

/-- The scopes and instances of a running program. -/
structure Store where
  scopes : Array (Bindings Value)
  fields : Array (Bindings Value)
  deriving Inhabited

namespace Store

/-- No scopes and no instances. -/
def empty : Store := ⟨#[], #[]⟩

/-! ### Scopes -/

/-- The bindings of a scope. -/
def scope (store : Store) (reference : ScopeRef) : Bindings Value :=
  store.scopes[reference.index]?.getD .empty

/-- A new scope with given bindings. -/
def addScope (store : Store) (bindings : Bindings Value) : ScopeRef × Store :=
  (⟨store.scopes.size⟩, { store with scopes := store.scopes.push bindings })

/-- Bind a name in a scope, replacing what it stood for there. -/
def define (store : Store) (reference : ScopeRef) (name : String) (value : Value) : Store :=
  { store with
    scopes := store.scopes.modify reference.index fun bindings => bindings.set name value }

@[simp] theorem addScope_fst (store : Store) (bindings : Bindings Value) :
    (store.addScope bindings).1.index = store.scopes.size := rfl

/-- A new scope has the bindings it was given and no other scope changes. -/
theorem scope_addScope (store : Store) (bindings : Bindings Value) (other : ScopeRef) :
    (store.addScope bindings).2.scope other =
      if other.index = store.scopes.size then bindings else store.scope other := by
  simp only [scope, addScope, Array.getElem?_push]
  split <;> simp

/-- Binding a name changes the scope it is bound in and no other. A reference
to no scope binds nothing. -/
theorem scope_define (store : Store) (reference other : ScopeRef) (name : String)
    (value : Value) :
    (store.define reference name value).scope other =
      if other = reference ∧ reference.index < store.scopes.size then
        (store.scope reference).set name value
      else store.scope other := by
  obtain ⟨index⟩ := reference
  obtain ⟨place⟩ := other
  simp only [scope, define, Array.getElem?_modify, ScopeRef.mk.injEq]
  by_cases same : index = place
  · subst same
    by_cases inside : index < store.scopes.size <;> simp [inside]
  · simp [same, Ne.symm same]

/-- Binding a name again binds no name anew in any scope. -/
theorem names_define {store : Store} {scope : ScopeRef} {name : String} (value : Value)
    (bound : (store.scope scope).contains name = true) (other : ScopeRef) :
    ((store.define scope name value).scope other).names = (store.scope other).names := by
  rw [Store.scope_define]
  split
  · next here =>
      rw [here.1]
      exact Bindings.names_set value bound
  · rfl

@[simp] theorem fields_define (store : Store) (reference : ScopeRef) (name : String)
    (value : Value) : (store.define reference name value).fields = store.fields := rfl

@[simp] theorem size_scopes_define (store : Store) (reference : ScopeRef) (name : String)
    (value : Value) :
    (store.define reference name value).scopes.size = store.scopes.size := by
  simp [define]

/-! ### Instances -/

/-- The fields of an instance. -/
def fieldsOf (store : Store) (reference : InstanceRef) : Bindings Value :=
  store.fields[reference.index]?.getD .empty

/-- A new instance without fields. -/
def addInstance (store : Store) : InstanceRef × Store :=
  (⟨store.fields.size⟩, { store with fields := store.fields.push .empty })

/-- Give a field of an instance a value. -/
def setField (store : Store) (reference : InstanceRef) (name : String) (value : Value) : Store :=
  { store with
    fields := store.fields.modify reference.index fun bindings => bindings.set name value }

@[simp] theorem addInstance_fst (store : Store) :
    store.addInstance.1.index = store.fields.size := rfl

/-- A new instance has no fields and no other instance changes. -/
theorem fieldsOf_addInstance (store : Store) (other : InstanceRef) :
    store.addInstance.2.fieldsOf other =
      if other.index = store.fields.size then .empty else store.fieldsOf other := by
  simp only [fieldsOf, addInstance, Array.getElem?_push]
  split <;> simp

/-- Storing a field changes one instance and no other. -/
theorem fieldsOf_setField (store : Store) (reference other : InstanceRef) (name : String)
    (value : Value) :
    (store.setField reference name value).fieldsOf other =
      if other = reference ∧ reference.index < store.fields.size then
        (store.fieldsOf reference).set name value
      else store.fieldsOf other := by
  obtain ⟨index⟩ := reference
  obtain ⟨place⟩ := other
  simp only [fieldsOf, setField, Array.getElem?_modify, InstanceRef.mk.injEq]
  by_cases same : index = place
  · subst same
    by_cases inside : index < store.fields.size <;> simp [inside]
  · simp [same, Ne.symm same]

@[simp] theorem scopes_setField (store : Store) (reference : InstanceRef) (name : String)
    (value : Value) : (store.setField reference name value).scopes = store.scopes := rfl

end Store

namespace Environment

/-- The nearest scope of an environment that binds a name. -/
def binder? (environment : Environment) (store : Store) (name : String) : Option ScopeRef :=
  environment.find? fun reference => (store.scope reference).contains name

/-- The value of a name in the nearest scope that binds it. -/
def lookup? (environment : Environment) (store : Store) (name : String) : Option Value :=
  environment.findSome? fun reference => (store.scope reference).get? name

/-- Give a name a new value in the nearest scope that binds it. There is no
result where no scope does. -/
def assign? (environment : Environment) (store : Store) (name : String) (value : Value) :
    Option Store :=
  (environment.binder? store name).map fun reference => store.define reference name value

/-- The environment a number of scopes further out. -/
def ancestor? (environment : Environment) (distance : Nat) : Option Environment :=
  if distance < environment.length then some (environment.drop distance) else none

/-- The scope a number of scopes further out. -/
def scopeAt? (environment : Environment) (distance : Nat) : Option ScopeRef :=
  environment[distance]?

/-- The value of a name in the scope at a distance, and in no other. -/
def lookupAt? (environment : Environment) (store : Store) (distance : Nat) (name : String) :
    Option Value :=
  (environment.scopeAt? distance).bind fun reference => (store.scope reference).get? name

/-- Bind a name in the scope at a distance. There is no result where there are
not that many scopes. -/
def assignAt? (environment : Environment) (store : Store) (distance : Nat) (name : String)
    (value : Value) : Option Store :=
  (environment.scopeAt? distance).map fun reference => store.define reference name value

/-- The nearest scope that binds a name is the one its value comes from. -/
theorem lookup?_eq (environment : Environment) (store : Store) (name : String) :
    environment.lookup? store name =
      (environment.binder? store name).bind fun reference => (store.scope reference).get? name := by
  induction environment with
  | nil => rfl
  | cons reference outer ih =>
      simp only [lookup?, binder?] at ih
      simp only [lookup?, binder?, List.findSome?_cons, List.find?_cons, Bindings.contains]
      cases found : (store.scope reference).get? name with
      | none => simpa [Bindings.contains] using ih
      | some value => simp [found]

/-- Going out a number of scopes ends in front of the scope at that distance. -/
theorem head?_ancestor? (environment : Environment) (distance : Nat) :
    (environment.ancestor? distance).bind List.head? = environment.scopeAt? distance := by
  unfold ancestor? scopeAt?
  split
  · simp [List.head?_drop]
  · next beyond => simpa using beyond

end Environment

end Lox
