import Lox.Evaluation.Operators
import Lox.Proofs.Binding.Paired
import Mathlib.Data.List.Forall2

/-!
# Values akin

Two values are akin if they are built in the same way from functions that stand for
each other. Which functions do, and which methods of classes, is said by a `Kinship`.
Whatever asks a value for its kind, its text or its identity then gets the same answer
from both, and stores that hold values akin keep doing so.
-/

namespace Lox

/-- Which functions and which methods of classes stand for each other. They may differ
in what they do when they are called, but not in what is seen of them from outside. -/
structure Kinship where
  function : Closure → Closure → Prop
  method : Closure → Closure → Prop
  identity : ∀ {one other : Closure}, function one other → one.identity = other.identity
  name : ∀ {one other : Closure}, function one other → one.name = other.name
  arity : ∀ {one other : Closure}, function one other → one.arity = other.arity
  arityOfMethod : ∀ {one other : Closure}, method one other → one.arity = other.arity

/-- What stands for each other in one kinship does so in a wider one. -/
structure Kinship.Within (kinship wider : Kinship) : Prop where
  function : ∀ {one other : Closure}, kinship.function one other → wider.function one other
  method : ∀ {one other : Closure}, kinship.method one other → wider.method one other

/-! ## Classes and values -/

/-- The same class but for what it inherits. -/
structure ClassLayer.Akin (kinship : Kinship) (one other : ClassLayer) : Prop where
  identity : one.identity = other.identity
  name : one.name = other.name
  methods : one.methods.Paired Eq kinship.method other.methods

/-- The same class. -/
structure Class.Akin (kinship : Kinship) (one other : Class) : Prop where
  own : one.own.Akin kinship other.own
  inherited : List.Forall₂ (ClassLayer.Akin kinship) one.inherited other.inherited

/-- The same object. -/
structure Instance.Akin (kinship : Kinship) (one other : Instance) : Prop where
  reference : one.reference = other.reference
  cls : one.cls.Akin kinship other.cls

/-- Values that differ in what functions do when they are called, and in nothing else. -/
inductive Value.Akin (kinship : Kinship) : Value → Value → Prop where
  | nil : Value.Akin kinship .nil .nil
  | bool (flag : Bool) : Value.Akin kinship (.bool flag) (.bool flag)
  | number (amount : Float) : Value.Akin kinship (.number amount) (.number amount)
  | string (text : String) : Value.Akin kinship (.string text) (.string text)
  | native (host : Native) : Value.Akin kinship (.native host) (.native host)
  | function {closure closure' : Closure} (same : kinship.function closure closure') :
      Value.Akin kinship (.function closure) (.function closure')
  | cls {found found' : Class} (same : found.Akin kinship found') :
      Value.Akin kinship (.cls found) (.cls found')
  | object {held held' : Instance} (same : held.Akin kinship held') :
      Value.Akin kinship (.object held) (.object held')

/-- The same thing to call. -/
inductive Callable.Akin (kinship : Kinship) : Callable → Callable → Prop where
  | native (host : Native) : Callable.Akin kinship (.native host) (.native host)
  | function {closure closure' : Closure} (same : kinship.function closure closure') :
      Callable.Akin kinship (.function closure) (.function closure')
  | cls {found found' : Class} (same : found.Akin kinship found') :
      Callable.Akin kinship (.cls found) (.cls found')

/-- The same flow. -/
inductive Flow.Akin (kinship : Kinship) : Flow → Flow → Prop where
  | normal : Flow.Akin kinship .normal .normal
  | returned {value value' : Value} (same : value.Akin kinship value') :
      Flow.Akin kinship (.returned value) (.returned value')

variable {kinship wider : Kinship}

section Widening

variable (within : kinship.Within wider)
include within

theorem Class.Akin.widen {one other : Class} (akin : one.Akin kinship other) :
    one.Akin wider other := by
  have layer {own own' : ClassLayer} (same : own.Akin kinship own') : own.Akin wider own' :=
    ⟨same.identity, same.name, same.methods.imp within.method⟩
  exact ⟨layer akin.own, akin.inherited.imp fun _ _ => layer⟩

theorem Instance.Akin.widen {one other : Instance} (akin : one.Akin kinship other) :
    one.Akin wider other :=
  ⟨akin.reference, akin.cls.widen within⟩

theorem Value.Akin.widen {one other : Value} (akin : one.Akin kinship other) :
    one.Akin wider other := by
  cases akin with
  | nil => exact .nil
  | bool flag => exact .bool flag
  | number amount => exact .number amount
  | string text => exact .string text
  | native host => exact .native host
  | function same => exact .function (within.function same)
  | cls same => exact .cls (same.widen within)
  | object same => exact .object (same.widen within)

end Widening

/-- A class stands for itself if its methods do. -/
theorem Class.akin_self {found : Class}
    (methods : ∀ own ∈ found.chain, ∀ name method, own.methods.get? name = some method →
      kinship.method method method) : found.Akin kinship found := by
  have layer {own : ClassLayer} (inside : own ∈ found.chain) : own.Akin kinship own :=
    ⟨rfl, rfl, .refl Iff.rfl (methods own inside)⟩
  exact ⟨layer (.head _), List.forall₂_same.mpr fun own inside => layer (.tail _ inside)⟩

/-- A value stands for itself if the function or the class in it does. -/
theorem Value.akin_self {value : Value}
    (function : ∀ closure, value = .function closure → kinship.function closure closure)
    (cls : ∀ found, value = .cls found → found.Akin kinship found)
    (object : ∀ held, value = .object held → held.cls.Akin kinship held.cls) :
    value.Akin kinship value := by
  cases value with
  | nil => exact .nil
  | bool flag => exact .bool flag
  | number amount => exact .number amount
  | string text => exact .string text
  | native host => exact .native host
  | function closure => exact .function (function closure rfl)
  | cls found => exact .cls (cls found rfl)
  | object held => exact .object ⟨rfl, object held rfl⟩

namespace Class

variable {one other : Class}

theorem Akin.chain (akin : one.Akin kinship other) :
    List.Forall₂ (ClassLayer.Akin kinship) one.chain other.chain :=
  .cons akin.own akin.inherited

theorem akin_extend {own own' : ClassLayer} {superclass superclass' : Option Class}
    (akin : own.Akin kinship own')
    (above : Option.Rel (Class.Akin kinship) superclass superclass') :
    (extend own superclass).Akin kinship (extend own' superclass') := by
  cases above with
  | none => exact ⟨akin, .nil⟩
  | some same => exact ⟨akin, same.chain⟩

/-- Looking up a method in classes akin finds methods that stand for each other. -/
theorem Akin.method? (akin : one.Akin kinship other) (name : String) :
    Option.Rel kinship.method (one.method? name) (other.method? name) := by
  have chain := akin.chain
  unfold Class.method?
  generalize one.chain = layers, other.chain = layers' at chain
  induction chain with
  | nil => exact .none
  | @cons layer layer' _ _ first _ ih =>
      have found := first.methods.get? (rfl : name = name)
      rw [List.findSome?_cons, List.findSome?_cons]
      generalize layer.methods.get? name = method, layer'.methods.get? name = method' at found
      cases found with
      | none => exact ih
      | some same => exact .some same

theorem Akin.initializer? (akin : one.Akin kinship other) :
    Option.Rel kinship.method one.initializer? other.initializer? :=
  akin.method? initializerName

theorem Akin.arity (akin : one.Akin kinship other) : one.arity = other.arity := by
  have found := akin.initializer?
  unfold Class.arity
  generalize one.initializer? = method, other.initializer? = method' at found
  cases found with
  | none => rfl
  | some same => exact kinship.arityOfMethod same

end Class

theorem Callable.Akin.arity {one other : Callable} (akin : one.Akin kinship other) :
    one.arity = other.arity := by
  cases akin with
  | native _ => rfl
  | function same => exact kinship.arity same
  | cls same => exact same.arity

namespace Value

variable {one other left left' right right' : Value}

theorem akin_literal (literal : Literal) : literal.value.Akin kinship literal.value := by
  cases literal with
  | nil => exact .nil
  | bool flag => exact .bool flag
  | number amount => exact .number amount
  | string text => exact .string text

theorem Akin.isTruthy (akin : one.Akin kinship other) : one.isTruthy = other.isTruthy := by
  cases akin <;> rfl

theorem Akin.decides (akin : one.Akin kinship other) (kind : Token.Kind) :
    one.decides kind = other.decides kind := by
  unfold Value.decides
  rw [akin.isTruthy]

theorem Akin.pieces (akin : one.Akin kinship other) : one.pieces = other.pieces := by
  cases akin with
  | bool flag => rfl
  | function same =>
      simp only [Value.pieces]
      rw [kinship.name same]
  | cls same => exact congrArg (fun name => [name]) same.own.name
  | object same => exact congrArg (fun name => [name, " instance"]) same.cls.own.name
  | _ => rfl

theorem Akin.callable? (akin : one.Akin kinship other) :
    Option.Rel (Callable.Akin kinship) one.callable? other.callable? := by
  cases akin with
  | native host => exact .some (.native host)
  | function same => exact .some (.function same)
  | cls same => exact .some (.cls same)
  | _ => exact .none

theorem Akin.equals (first : left.Akin kinship left') (second : right.Akin kinship right') :
    left.equals right = left'.equals right' := by
  cases first with
  | function same =>
      cases second with
      | function again => simp only [Value.equals, kinship.identity same, kinship.identity again]
      | _ => rfl
  | cls same =>
      cases second with
      | cls again => simp only [Value.equals, same.own.identity, again.own.identity]
      | _ => rfl
  | object same =>
      cases second with
      | object again => simp only [Value.equals, same.reference, again.reference]
      | _ => rfl
  | _ => cases second <;> rfl

/-! ### Operators

What an operator yields has no functions in it, so operands akin give the very same
result. -/

theorem Akin.add (first : left.Akin kinship left') (second : right.Akin kinship right') :
    left.add right = left'.add right' := by
  cases first <;> cases second <;> rfl

theorem Akin.unary (akin : one.Akin kinship other) (kind : Token.Kind) :
    one.unary kind = other.unary kind := by
  unfold Value.unary
  rw [akin.isTruthy]
  cases akin <;> rfl

theorem Akin.binary (first : left.Akin kinship left') (second : right.Akin kinship right')
    (kind : Token.Kind) : left.binary kind right = left'.binary kind right' := by
  unfold Value.binary
  rw [first.equals second, first.add second]
  split
  · rfl
  · rfl
  · rfl
  · cases numericOperation? kind with
    | none => rfl
    | some operation => cases first <;> cases second <;> rfl

theorem akin_unary {kind : Token.Kind} {result : Value} (succeeds : one.unary kind = .ok result) :
    result.Akin kinship result := by
  unfold Value.unary at succeeds
  split at succeeds
  · cases one <;> cases succeeds
    exact .number _
  · cases succeeds
    exact .bool _
  · cases succeeds

theorem akin_numericOperation {kind : Token.Kind} {operation : Float → Float → Value}
    (known : numericOperation? kind = some operation) (first second : Float) :
    (operation first second).Akin kinship (operation first second) := by
  unfold numericOperation? at known
  split at known <;> cases known
  · exact .number _
  · exact .number _
  · exact .number _
  · exact .bool _
  · exact .bool _
  · exact .bool _
  · exact .bool _

theorem akin_binary {kind : Token.Kind} {result : Value}
    (succeeds : left.binary kind right = .ok result) : result.Akin kinship result := by
  unfold Value.binary at succeeds
  split at succeeds
  · unfold Value.add at succeeds
    split at succeeds <;> cases succeeds
    · exact .number _
    · exact .string _
  · cases succeeds
    exact .bool _
  · cases succeeds
    exact .bool _
  · split at succeeds
    · cases succeeds
    · next known =>
        split at succeeds <;> cases succeeds
        exact akin_numericOperation known _ _

end Value

/-! ## Stores -/

/-- The same scopes and fields, with values akin in them. Which names stand for each
other may depend on the scope. -/
structure Store.Akin (names : ScopeRef → String → String → Prop) (kinship : Kinship)
    (one other : Store) : Prop where
  scopes : one.scopes.size = other.scopes.size
  fields : one.fields.size = other.fields.size
  bound : ∀ reference,
    (one.scope reference).Paired (names reference) (Value.Akin kinship) (other.scope reference)
  held : ∀ reference,
    (one.fieldsOf reference).Paired Eq (Value.Akin kinship) (other.fieldsOf reference)

namespace Store

variable {names names' : ScopeRef → String → String → Prop} {one other : Store}

theorem Akin.widen (akin : one.Akin names kinship other) (within : kinship.Within wider) :
    one.Akin names wider other :=
  ⟨akin.scopes, akin.fields, fun reference => (akin.bound reference).imp (·.widen within),
    fun reference => (akin.held reference).imp (·.widen within)⟩

/-- A new scope may have names of its own that stand for each other. -/
theorem Akin.addScope (akin : one.Akin names kinship other) {bindings bindings' : Bindings Value}
    (kept : ∀ reference, reference.index < one.scopes.size → names' reference = names reference)
    (paired : bindings.Paired (names' ⟨one.scopes.size⟩) (Value.Akin kinship) bindings') :
    (one.addScope bindings).2.Akin names' kinship (other.addScope bindings').2 := by
  constructor
  · simp [Store.addScope, akin.scopes]
  · exact akin.fields
  · intro reference
    rw [scope_addScope, scope_addScope, ← akin.scopes]
    split
    · next new =>
        obtain ⟨_⟩ := reference
        obtain rfl := new
        exact paired
    · next old =>
        by_cases inside : reference.index < one.scopes.size
        · exact kept reference inside ▸ akin.bound reference
        · have beyond : one.scopes.size ≤ reference.index := Nat.le_of_not_lt inside
          have absent : one.scope reference = .empty := by simp [scope, beyond]
          have absent' : other.scope reference = .empty := by
            simp [scope, akin.scopes ▸ beyond]
          rw [absent, absent']
          exact Bindings.paired_empty
  · exact akin.held

theorem Akin.define (akin : one.Akin names kinship other) (reference : ScopeRef)
    (apart : Bindings.OneToOne (names reference)) {name name' : String}
    (same : names reference name name') {value value' : Value}
    (held : value.Akin kinship value') :
    (one.define reference name value).Akin names kinship
      (other.define reference name' value') := by
  constructor
  · rw [size_scopes_define, size_scopes_define]
    exact akin.scopes
  · exact akin.fields
  · intro place
    rw [scope_define, scope_define, akin.scopes]
    split
    · next here =>
        obtain ⟨rfl, -⟩ := here
        exact (akin.bound place).set apart same held
    · exact akin.bound place
  · exact akin.held

theorem Akin.addInstance (akin : one.Akin names kinship other) :
    one.addInstance.2.Akin names kinship other.addInstance.2 := by
  constructor
  · exact akin.scopes
  · simp [Store.addInstance, akin.fields]
  · exact akin.bound
  · intro reference
    rw [fieldsOf_addInstance, fieldsOf_addInstance, akin.fields]
    split
    · exact Bindings.paired_empty
    · exact akin.held reference

theorem Akin.setField (akin : one.Akin names kinship other) (reference : InstanceRef)
    (name : String) {value value' : Value} (same : value.Akin kinship value') :
    (one.setField reference name value).Akin names kinship
      (other.setField reference name value') := by
  constructor
  · exact akin.scopes
  · simp [Store.setField, akin.fields]
  · exact akin.bound
  · intro place
    rw [fieldsOf_setField, fieldsOf_setField, akin.fields]
    split
    · exact (akin.held reference).set Bindings.oneToOne_eq rfl same
    · exact akin.held place

/-- In a scope at a distance, names that stand for each other there have values akin. -/
theorem Akin.lookupAt? (akin : one.Akin names kinship other) (environment : Environment)
    (distance : Nat) {name name' : String}
    (same : ∀ reference ∈ environment.scopeAt? distance, names reference name name') :
    Option.Rel (Value.Akin kinship) (environment.lookupAt? one distance name)
      (environment.lookupAt? other distance name') := by
  unfold Environment.lookupAt?
  cases found : environment.scopeAt? distance with
  | none => exact .none
  | some reference =>
      exact (akin.bound reference).get? (same reference found)

end Store

end Lox
