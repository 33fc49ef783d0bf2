import Lox.Evaluation.Evaluate
import Lox.Proofs.Syntax.Alike
import Lox.Value.Inspect

/-!
# Machines alike

Two values are alike if the functions in them come from declarations alike and
all else in them is the same. Two machines are alike if their stores hold values
alike in the same places and numbers that stand for each other have the same
distances. What can be seen of a value is the same for values alike.
-/

namespace Lox

variable {likeness wider : Likeness}

/-! ## Maps from names -/

namespace Bindings

variable {α β : Type} {related : α → β → Prop}

/-- Two maps bind the same names in the same order, to related things. -/
def Related (related : α → β → Prop) (one : Bindings α) (other : Bindings β) : Prop :=
  List.Forall₂ (fun entry entry' => entry.1 = entry'.1 ∧ related entry.2 entry'.2)
    one.entries other.entries

variable {one : Bindings α} {other : Bindings β}

theorem related_empty : Related related .empty .empty := .nil

theorem Related.imp {weaker : α → β → Prop} (holds : one.Related related other)
    (weaken : ∀ {value value'}, related value value' → weaker value value') :
    one.Related weaker other :=
  List.Forall₂.imp (fun _ _ both => ⟨both.1, weaken both.2⟩) holds

theorem Related.names (holds : one.Related related other) : one.names = other.names := by
  obtain ⟨entries⟩ := one
  obtain ⟨entries'⟩ := other
  change entries.map Prod.fst = entries'.map Prod.fst
  unfold Related at holds
  dsimp only at holds
  induction holds with
  | nil => rfl
  | cons first _ ih => rw [List.map_cons, List.map_cons, first.1, ih]

theorem Related.get? (holds : one.Related related other) (name : String) :
    Option.Rel related (one.get? name) (other.get? name) := by
  obtain ⟨entries⟩ := one
  obtain ⟨entries'⟩ := other
  change Option.Rel related (lookup entries name) (lookup entries' name)
  unfold Related at holds
  dsimp only at holds
  induction holds with
  | nil => exact .none
  | @cons entry entry' _ _ first _ ih =>
      obtain ⟨bound, value⟩ := entry
      obtain ⟨bound', value'⟩ := entry'
      obtain ⟨rfl, held⟩ := first
      unfold lookup
      split
      · exact .some held
      · exact ih

theorem Related.contains (holds : one.Related related other) (name : String) :
    one.contains name = other.contains name := by
  have found := holds.get? name
  unfold Bindings.contains
  generalize one.get? name = first, other.get? name = second at found
  cases found <;> rfl

theorem Related.set (holds : one.Related related other) (name : String) {value : α} {value' : β}
    (held : related value value') :
    (one.set name value).Related related (other.set name value') := by
  obtain ⟨entries⟩ := one
  obtain ⟨entries'⟩ := other
  change List.Forall₂ _ (update entries name value) (update entries' name value')
  unfold Related at holds
  dsimp only at holds
  induction holds with
  | nil => exact .cons ⟨rfl, held⟩ .nil
  | @cons entry entry' _ _ first rest ih =>
      obtain ⟨bound, old⟩ := entry
      obtain ⟨bound', old'⟩ := entry'
      obtain ⟨rfl, before⟩ := first
      simp only [update]
      split
      · exact .cons ⟨rfl, held⟩ rest
      · exact .cons ⟨rfl, before⟩ ih

end Bindings

/-! ## Functions, classes and values -/

/-- The same function, declared alike. -/
structure Closure.Alike (likeness : Likeness) (one other : Closure) : Prop where
  identity : one.identity = other.identity
  declaration : one.declaration.Alike likeness other.declaration
  environment : one.environment = other.environment
  isInitializer : one.isInitializer = other.isInitializer

/-- The same class but for what it inherits. -/
structure ClassLayer.Alike (likeness : Likeness) (one other : ClassLayer) : Prop where
  identity : one.identity = other.identity
  name : one.name = other.name
  methods : one.methods.Related (Closure.Alike likeness) other.methods

/-- The same class. -/
structure Class.Alike (likeness : Likeness) (one other : Class) : Prop where
  own : one.own.Alike likeness other.own
  inherited : List.Forall₂ (ClassLayer.Alike likeness) one.inherited other.inherited

/-- The same object. -/
structure Instance.Alike (likeness : Likeness) (one other : Instance) : Prop where
  reference : one.reference = other.reference
  cls : one.cls.Alike likeness other.cls

/-- Values that differ in the declarations of functions only. -/
inductive Value.Alike (likeness : Likeness) : Value → Value → Prop where
  | nil : Value.Alike likeness .nil .nil
  | bool (flag : Bool) : Value.Alike likeness (.bool flag) (.bool flag)
  | number (amount : Float) : Value.Alike likeness (.number amount) (.number amount)
  | string (text : String) : Value.Alike likeness (.string text) (.string text)
  | native (host : Native) : Value.Alike likeness (.native host) (.native host)
  | function {closure closure' : Closure} (same : closure.Alike likeness closure') :
      Value.Alike likeness (.function closure) (.function closure')
  | cls {found found' : Class} (same : found.Alike likeness found') :
      Value.Alike likeness (.cls found) (.cls found')
  | object {held held' : Instance} (same : held.Alike likeness held') :
      Value.Alike likeness (.object held) (.object held')

/-- The same thing to call. -/
inductive Callable.Alike (likeness : Likeness) : Callable → Callable → Prop where
  | native (host : Native) : Callable.Alike likeness (.native host) (.native host)
  | function {closure closure' : Closure} (same : closure.Alike likeness closure') :
      Callable.Alike likeness (.function closure) (.function closure')
  | cls {found found' : Class} (same : found.Alike likeness found') :
      Callable.Alike likeness (.cls found) (.cls found')

/-- The same flow. -/
inductive Flow.Alike (likeness : Likeness) : Flow → Flow → Prop where
  | normal : Flow.Alike likeness .normal .normal
  | returned {value value' : Value} (same : value.Alike likeness value') :
      Flow.Alike likeness (.returned value) (.returned value')

section Widening

theorem Closure.Alike.widen (within : likeness.Within wider) {one other : Closure}
    (alike : one.Alike likeness other) : one.Alike wider other :=
  ⟨alike.identity, alike.declaration.widen within, alike.environment, alike.isInitializer⟩

theorem ClassLayer.Alike.widen (within : likeness.Within wider) {one other : ClassLayer}
    (alike : one.Alike likeness other) : one.Alike wider other :=
  ⟨alike.identity, alike.name, alike.methods.imp (·.widen within)⟩

theorem Class.Alike.widen (within : likeness.Within wider) {one other : Class}
    (alike : one.Alike likeness other) : one.Alike wider other :=
  ⟨alike.own.widen within, alike.inherited.imp fun _ _ layer => layer.widen within⟩

theorem Value.Alike.widen (within : likeness.Within wider) {one other : Value}
    (alike : one.Alike likeness other) : one.Alike wider other := by
  cases alike with
  | nil => exact .nil
  | bool flag => exact .bool flag
  | number amount => exact .number amount
  | string text => exact .string text
  | native host => exact .native host
  | function same => exact .function (same.widen within)
  | cls same => exact .cls (same.widen within)
  | object same => exact .object ⟨same.reference, same.cls.widen within⟩

end Widening

theorem Closure.Alike.arity {one other : Closure} (alike : one.Alike likeness other) :
    one.arity = other.arity :=
  alike.declaration.parameters.length_eq

namespace Class

variable {one other : Class}

theorem Alike.chain (alike : one.Alike likeness other) :
    List.Forall₂ (ClassLayer.Alike likeness) one.chain other.chain :=
  .cons alike.own alike.inherited

theorem Alike.name (alike : one.Alike likeness other) : one.name = other.name :=
  alike.own.name

theorem alike_extend {own own' : ClassLayer} {superclass superclass' : Option Class}
    (alike : own.Alike likeness own') (above : Option.Rel (Class.Alike likeness) superclass
      superclass') : (extend own superclass).Alike likeness (extend own' superclass') := by
  cases above with
  | none => exact ⟨alike, .nil⟩
  | some same => exact ⟨alike, same.chain⟩

/-- Looking up a method in classes alike finds methods alike. -/
theorem Alike.method? (alike : one.Alike likeness other) (name : String) :
    Option.Rel (Closure.Alike likeness) (one.method? name) (other.method? name) := by
  have chain := alike.chain
  unfold Class.method?
  generalize one.chain = layers, other.chain = layers' at chain
  induction chain with
  | nil => exact .none
  | @cons layer layer' _ _ first _ ih =>
      have found := first.methods.get? name
      rw [List.findSome?_cons, List.findSome?_cons]
      generalize layer.methods.get? name = method, layer'.methods.get? name = method' at found
      cases found with
      | none => exact ih
      | some same => exact .some same

theorem Alike.initializer? (alike : one.Alike likeness other) :
    Option.Rel (Closure.Alike likeness) one.initializer? other.initializer? :=
  alike.method? initializerName

theorem Alike.arity (alike : one.Alike likeness other) : one.arity = other.arity := by
  have found := alike.initializer?
  unfold Class.arity
  generalize one.initializer? = method, other.initializer? = method' at found
  cases found with
  | none => rfl
  | some same => exact same.arity

theorem Alike.superclass? (alike : one.Alike likeness other) :
    Option.Rel (Class.Alike likeness) one.superclass? other.superclass? := by
  have inherited := alike.inherited
  unfold Class.superclass?
  generalize one.inherited = layers, other.inherited = layers' at inherited
  cases inherited with
  | nil => exact .none
  | cons first rest => exact .some ⟨first, rest⟩

end Class

theorem Callable.Alike.arity {one other : Callable} (alike : one.Alike likeness other) :
    one.arity = other.arity := by
  cases alike with
  | native _ => rfl
  | function same => exact same.arity
  | cls same => exact same.arity

namespace Value

variable {one other left left' right right' : Value}

theorem alike_literal (literal : Literal) : literal.value.Alike likeness literal.value := by
  cases literal with
  | nil => exact .nil
  | bool flag => exact .bool flag
  | number amount => exact .number amount
  | string text => exact .string text

theorem Alike.isTruthy (alike : one.Alike likeness other) : one.isTruthy = other.isTruthy := by
  cases alike <;> rfl

theorem Alike.decides (alike : one.Alike likeness other) (kind : Token.Kind) :
    one.decides kind = other.decides kind := by
  unfold Value.decides
  rw [alike.isTruthy]

theorem Alike.pieces (alike : one.Alike likeness other) : one.pieces = other.pieces := by
  cases alike with
  | bool flag => rfl
  | function same =>
      simp only [Value.pieces, Closure.name]
      rw [likeness.lexeme same.declaration.name]
  | cls same => exact congrArg (fun name => [name]) same.name
  | object same => exact congrArg (fun name => [name, " instance"]) same.cls.name
  | _ => rfl

theorem Alike.callable? (alike : one.Alike likeness other) :
    Option.Rel (Callable.Alike likeness) one.callable? other.callable? := by
  cases alike with
  | native host => exact .some (.native host)
  | function same => exact .some (.function same)
  | cls same => exact .some (.cls same)
  | _ => exact .none

theorem Alike.equals (first : left.Alike likeness left') (second : right.Alike likeness right') :
    left.equals right = left'.equals right' := by
  cases first with
  | function same =>
      cases second with
      | function again => simp only [Value.equals, same.identity, again.identity]
      | _ => rfl
  | cls same =>
      cases second with
      | cls again => simp only [Value.equals, same.own.identity, again.own.identity]
      | _ => rfl
  | object same =>
      cases second with
      | object again => simp only [Value.equals, same.reference, again.reference]
      | _ => rfl
  | _ => cases second <;> rfl

/-! ### Operators

What an operator yields has no functions in it, so operands alike give the very
same result. -/

theorem Alike.add (first : left.Alike likeness left') (second : right.Alike likeness right') :
    left.add right = left'.add right' := by
  cases first <;> cases second <;> rfl

theorem Alike.unary (alike : one.Alike likeness other) (kind : Token.Kind) :
    one.unary kind = other.unary kind := by
  unfold Value.unary
  rw [alike.isTruthy]
  cases alike <;> rfl

theorem Alike.binary (first : left.Alike likeness left') (second : right.Alike likeness right')
    (kind : Token.Kind) : left.binary kind right = left'.binary kind right' := by
  unfold Value.binary
  rw [first.equals second, first.add second]
  split
  · rfl
  · rfl
  · rfl
  · cases numericOperation? kind with
    | none => rfl
    | some operation => cases first <;> cases second <;> rfl

theorem alike_unary {kind : Token.Kind} {result : Value} (succeeds : one.unary kind = .ok result) :
    result.Alike likeness result := by
  unfold Value.unary at succeeds
  split at succeeds
  · cases one <;> cases succeeds
    exact .number _
  · cases succeeds
    exact .bool _
  · cases succeeds

theorem alike_numericOperation {kind : Token.Kind} {operation : Float → Float → Value}
    (known : numericOperation? kind = some operation) (first second : Float) :
    (operation first second).Alike likeness (operation first second) := by
  unfold numericOperation? at known
  split at known <;> cases known
  · exact .number _
  · exact .number _
  · exact .number _
  · exact .bool _
  · exact .bool _
  · exact .bool _
  · exact .bool _

theorem alike_binary {kind : Token.Kind} {result : Value}
    (succeeds : left.binary kind right = .ok result) : result.Alike likeness result := by
  unfold Value.binary at succeeds
  split at succeeds
  · unfold Value.add at succeeds
    split at succeeds <;> cases succeeds
    · exact .number _
    · exact .string _
  · cases succeeds
    exact .bool _
  · cases succeeds
    exact .bool _
  · split at succeeds
    · cases succeeds
    · next known =>
        split at succeeds <;> cases succeeds
        exact alike_numericOperation known _ _

end Value

/-! ## Stores -/

/-- The same scopes and fields, with values alike in them. -/
structure Store.Alike (likeness : Likeness) (one other : Store) : Prop where
  scopes : one.scopes.size = other.scopes.size
  fields : one.fields.size = other.fields.size
  bound : ∀ reference,
    (one.scope reference).Related (Value.Alike likeness) (other.scope reference)
  held : ∀ reference,
    (one.fieldsOf reference).Related (Value.Alike likeness) (other.fieldsOf reference)

namespace Store

variable {one other : Store}

theorem Alike.widen (alike : one.Alike likeness other) (within : likeness.Within wider) :
    one.Alike wider other :=
  ⟨alike.scopes, alike.fields, fun reference => (alike.bound reference).imp (·.widen within),
    fun reference => (alike.held reference).imp (·.widen within)⟩

theorem Alike.addScope (alike : one.Alike likeness other) {bindings bindings' : Bindings Value}
    (related : bindings.Related (Value.Alike likeness) bindings') :
    (one.addScope bindings).2.Alike likeness (other.addScope bindings').2 := by
  constructor
  · simp [Store.addScope, alike.scopes]
  · exact alike.fields
  · intro reference
    rw [scope_addScope, scope_addScope, alike.scopes]
    split
    · exact related
    · exact alike.bound reference
  · exact alike.held

theorem Alike.define (alike : one.Alike likeness other) (reference : ScopeRef) (name : String)
    {value value' : Value} (same : value.Alike likeness value') :
    (one.define reference name value).Alike likeness (other.define reference name value') := by
  constructor
  · rw [size_scopes_define, size_scopes_define]
    exact alike.scopes
  · exact alike.fields
  · intro place
    rw [scope_define, scope_define, alike.scopes]
    split
    · exact (alike.bound reference).set name same
    · exact alike.bound place
  · exact alike.held

theorem Alike.addInstance (alike : one.Alike likeness other) :
    one.addInstance.2.Alike likeness other.addInstance.2 := by
  constructor
  · exact alike.scopes
  · simp [Store.addInstance, alike.fields]
  · exact alike.bound
  · intro reference
    rw [fieldsOf_addInstance, fieldsOf_addInstance, alike.fields]
    split
    · exact Bindings.related_empty
    · exact alike.held reference

theorem Alike.setField (alike : one.Alike likeness other) (reference : InstanceRef)
    (name : String) {value value' : Value} (same : value.Alike likeness value') :
    (one.setField reference name value).Alike likeness
      (other.setField reference name value') := by
  constructor
  · exact alike.scopes
  · simp [Store.setField, alike.fields]
  · exact alike.bound
  · intro place
    rw [fieldsOf_setField, fieldsOf_setField, alike.fields]
    split
    · exact (alike.held reference).set name same
    · exact alike.held place

/-- Walking outward ends at the same scope. -/
theorem Alike.binder? (alike : one.Alike likeness other) (environment : Environment)
    (name : String) : environment.binder? one name = environment.binder? other name := by
  unfold Environment.binder?
  simp only [(alike.bound _).contains]

theorem Alike.lookup? (alike : one.Alike likeness other) (environment : Environment)
    (name : String) : Option.Rel (Value.Alike likeness) (environment.lookup? one name)
      (environment.lookup? other name) := by
  unfold Environment.lookup?
  induction environment with
  | nil => exact .none
  | cons reference outer ih =>
      have found := (alike.bound reference).get? name
      rw [List.findSome?_cons, List.findSome?_cons]
      generalize (one.scope reference).get? name = held, (other.scope reference).get? name = held'
        at found
      cases found with
      | none => exact ih
      | some same => exact .some same

theorem Alike.lookupAt? (alike : one.Alike likeness other) (environment : Environment)
    (distance : Nat) (name : String) : Option.Rel (Value.Alike likeness)
      (environment.lookupAt? one distance name) (environment.lookupAt? other distance name) := by
  unfold Environment.lookupAt?
  cases environment.scopeAt? distance with
  | none => exact .none
  | some reference => exact (alike.bound reference).get? name

end Store

/-! ## Faults and machines -/

/-- The same fault on lines that stand for each other. -/
inductive RuntimeFault.Alike (likeness : Likeness) : RuntimeFault → RuntimeFault → Prop where
  | undefinedVariable (name : String) {line line' : Nat} (same : likeness.line line line') :
      RuntimeFault.Alike likeness (.undefinedVariable name line) (.undefinedVariable name line')
  | undefinedProperty (name : String) {line line' : Nat} (same : likeness.line line line') :
      RuntimeFault.Alike likeness (.undefinedProperty name line) (.undefinedProperty name line')
  | type (fault : TypeFault) {line line' : Nat} (same : likeness.line line line') :
      RuntimeFault.Alike likeness (.type fault line) (.type fault line')
  | output (reason : String) : RuntimeFault.Alike likeness (.output reason) (.output reason)

/-- The same reason to stop. -/
inductive Halt.Alike (likeness : Likeness) : Halt → Halt → Prop where
  | fault {fault fault' : RuntimeFault} (same : fault.Alike likeness fault') :
      Halt.Alike likeness (.fault fault) (.fault fault')
  | outOfSteps : Halt.Alike likeness .outOfSteps .outOfSteps

namespace RuntimeFault

variable {token token' : Token}

theorem alike_variableAt (same : likeness.token token token') :
    (variableAt token).Alike likeness (variableAt token') := by
  unfold variableAt
  rw [likeness.lexeme same]
  exact .undefinedVariable _ ⟨_, _, same, rfl, rfl⟩

theorem alike_propertyAt (same : likeness.token token token') :
    (propertyAt token).Alike likeness (propertyAt token') := by
  unfold propertyAt
  rw [likeness.lexeme same]
  exact .undefinedProperty _ ⟨_, _, same, rfl, rfl⟩

theorem alike_typeAt (same : likeness.token token token') (fault : TypeFault) :
    (typeAt token fault).Alike likeness (typeAt token' fault) :=
  .type fault ⟨_, _, same, rfl, rfl⟩

theorem Alike.widen (within : likeness.Within wider) {one other : RuntimeFault}
    (alike : one.Alike likeness other) : one.Alike wider other := by
  cases alike with
  | undefinedVariable name same => exact .undefinedVariable name (within.line same)
  | undefinedProperty name same => exact .undefinedProperty name (within.line same)
  | type fault same => exact .type fault (within.line same)
  | output reason => exact .output reason

end RuntimeFault

theorem Halt.Alike.widen (within : likeness.Within wider) {one other : Halt} :
    one.Alike likeness other → one.Alike wider other
  | .fault same => .fault (same.widen within)
  | .outOfSteps => .outOfSteps

/-- A host that answers every call with a number or in words, whatever the
arguments are. -/
def Host.Tells (host : Host) (time : Native → Nat → Except String Float) : Prop :=
  ∀ function calls arguments, host function calls arguments = (time function calls).map .number

/-- Two machines in the same state, up to the declarations of functions and to the
numbers of references. -/
structure Machine.Alike (likeness : Likeness) (one other : Machine) : Prop where
  store : one.store.Alike likeness other.store
  environment : one.environment = other.environment
  distances : ∀ {number number' : Nat}, likeness.number number number' →
    one.distances.get? number = other.distances.get? number'
  nextIdentity : one.nextIdentity = other.nextIdentity
  hostCalls : one.hostCalls = other.hostCalls
  sink : one.sink = other.sink
  host : ∃ time, one.host.Tells time ∧ other.host.Tells time

namespace Machine

variable {one other : Machine}

theorem Alike.withStore (alike : one.Alike likeness other) {store store' : Store}
    (same : store.Alike likeness store') :
    Machine.Alike likeness { one with store := store } { other with store := store' } :=
  ⟨same, alike.environment, alike.distances, alike.nextIdentity, alike.hostCalls, alike.sink,
    alike.host⟩

theorem Alike.withEnvironment (alike : one.Alike likeness other) (environment : Environment) :
    Machine.Alike likeness { one with environment := environment }
      { other with environment := environment } :=
  ⟨alike.store, rfl, alike.distances, alike.nextIdentity, alike.hostCalls, alike.sink, alike.host⟩

/-- Of a wider likeness only the distances have to be the same again. -/
theorem Alike.widen (alike : one.Alike likeness other) (within : likeness.Within wider)
    {distances distances' : Distances} (noted : ∀ {number number' : Nat},
      wider.number number number' → distances.get? number = distances'.get? number') :
    Machine.Alike wider { one with distances := distances }
      { other with distances := distances' } :=
  ⟨alike.store.widen within, alike.environment, noted, alike.nextIdentity, alike.hostCalls,
    alike.sink, alike.host⟩

end Machine

/-! ## What is seen of a value -/

/-- Values alike look the same when they are inspected. -/
theorem Value.Alike.inspect {one other : Store} {value value' : Value}
    (alike : value.Alike likeness value') (stores : one.Alike likeness other) :
    value.inspect one = value'.inspect other := by
  cases alike with
  | function same =>
      simp only [Value.inspect, Closure.name]
      rw [likeness.lexeme same.declaration.name]
  | @cls found found' same =>
      have above := same.superclass?
      simp only [Value.inspect, inspectClass]
      rw [same.name, same.own.methods.names]
      generalize found.superclass? = parent, found'.superclass? = parent' at above
      cases above with
      | none => rfl
      | some shared => simp only [shared.name]
  | object same =>
      simp only [Value.inspect, inspectObject]
      rw [same.cls.name, same.reference, (stores.held _).names]
  | _ => rfl

end Lox
