/-!
# Names bound to things

A finite map from names, kept in the order in which the names were first bound.
Scopes, fields and methods are all maps of this kind. A name is bound at most
once: binding it again replaces what it stood for and keeps its place.
-/

namespace Lox

/-- A finite map from names. -/
structure Bindings (α : Type) where
  entries : List (String × α)
  deriving Inhabited

namespace Bindings

variable {α : Type}

/-- No name is bound. -/
def empty : Bindings α := ⟨[]⟩

/-- What a name stands for among entries. -/
def lookup : List (String × α) → String → Option α
  | [], _ => none
  | (bound, value) :: rest, name => if bound = name then some value else lookup rest name

/-- Entries with one name bound anew. -/
def update : List (String × α) → String → α → List (String × α)
  | [], name, value => [(name, value)]
  | (bound, old) :: rest, name, value =>
      if bound = name then (bound, value) :: rest
      else (bound, old) :: update rest name value

/-- What a name stands for. -/
def get? (bindings : Bindings α) (name : String) : Option α :=
  lookup bindings.entries name

/-- Whether a name is bound. -/
def contains (bindings : Bindings α) (name : String) : Bool :=
  (bindings.get? name).isSome

/-- Bind a name, replacing what it stood for. -/
def set (bindings : Bindings α) (name : String) (value : α) : Bindings α :=
  ⟨update bindings.entries name value⟩

/-- The bound names, in the order in which they were first bound. -/
def names (bindings : Bindings α) : List String :=
  bindings.entries.map Prod.fst

/-- What a name stands for is among the entries. -/
theorem mem_of_get? {bindings : Bindings α} {name : String} {value : α}
    (found : bindings.get? name = some value) : (name, value) ∈ bindings.entries := by
  have among (entries : List (String × α)) (found : lookup entries name = some value) :
      (name, value) ∈ entries := by
    induction entries with
    | nil => nomatch found
    | cons entry rest ih =>
        rw [lookup] at found
        split at found
        · next same =>
            cases found
            exact same ▸ List.mem_cons_self
        · exact List.mem_cons_of_mem _ (ih found)
  exact among bindings.entries found

@[simp] theorem get?_empty (name : String) : (empty : Bindings α).get? name = none := rfl

@[simp] theorem names_empty : (empty : Bindings α).names = [] := rfl

theorem lookup_update (entries : List (String × α)) (name other : String) (value : α) :
    lookup (update entries name value) other =
      if name = other then some value else lookup entries other := by
  induction entries with
  | nil => rfl
  | cons entry rest ih =>
      obtain ⟨bound, old⟩ := entry
      by_cases same : bound = name
      · subst same
        by_cases equal : bound = other <;> simp [update, lookup, equal]
      · by_cases equal : bound = other
        · subst equal
          simp [update, lookup, same, Ne.symm same]
        · simp [update, lookup, same, equal, ih]

/-- After a name is bound it stands for the new value and all others are as
before. -/
theorem get?_set (bindings : Bindings α) (name other : String) (value : α) :
    (bindings.set name value).get? other =
      if name = other then some value else bindings.get? other :=
  lookup_update bindings.entries name other value

@[simp] theorem get?_set_self (bindings : Bindings α) (name : String) (value : α) :
    (bindings.set name value).get? name = some value := by
  simp [get?_set]

theorem get?_set_of_ne (bindings : Bindings α) {name other : String} (value : α)
    (different : name ≠ other) :
    (bindings.set name value).get? other = bindings.get? other := by
  simp [get?_set, different]

/-- A name bound twice in a row stands for the second value. -/
@[simp] theorem set_set (bindings : Bindings α) (name : String) (first second : α) :
    (bindings.set name first).set name second = bindings.set name second := by
  have updated (entries : List (String × α)) :
      update (update entries name first) name second = update entries name second := by
    induction entries with
    | nil => simp [update]
    | cons entry rest ih =>
        obtain ⟨bound, old⟩ := entry
        by_cases same : bound = name <;> simp [update, same, ih]
  exact congrArg Bindings.mk (updated bindings.entries)

@[simp] theorem contains_empty (name : String) : (empty : Bindings α).contains name = false := rfl

/-- After a name is bound it is among the bound ones, with all others. -/
theorem contains_set (bindings : Bindings α) (name other : String) (value : α) :
    (bindings.set name value).contains other = (name = other || bindings.contains other) := by
  unfold contains
  rw [get?_set]
  by_cases same : name = other <;> simp [same]

/-- Binding a name again binds no name anew. -/
theorem names_set {bindings : Bindings α} {name : String} (value : α)
    (bound : bindings.contains name = true) : (bindings.set name value).names = bindings.names := by
  have updated (entries : List (String × α)) (found : (lookup entries name).isSome = true) :
      (update entries name value).map Prod.fst = entries.map Prod.fst := by
    induction entries with
    | nil => simp [lookup] at found
    | cons entry rest ih =>
        obtain ⟨first, old⟩ := entry
        by_cases same : first = name
        · simp [update, same]
        · rw [lookup, if_neg same] at found
          simp [update, same, ih found]
  exact updated bindings.entries bound

end Bindings

end Lox
