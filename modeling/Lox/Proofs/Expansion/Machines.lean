import Lox.Proofs.Evaluation.Akin
import Lox.Proofs.Evaluation.Alike
import Lox.Proofs.Expansion.Distances

/-!
# Machines of expanded programs

While a program and the expanded one run, the second store has a scope for every scope
that is made while the first one runs, and more scopes in between. A layout says for each
scope of the second store which one it stands for. It only grows, so that what is known of
an environment stays known.
-/

namespace Lox

/-! ## Layouts -/

/-- For each scope of the second store, in the order in which they were made, the scope of
the first store that it stands for, if there is one. -/
abbrev Padding.Layout := List (Option ScopeRef)

namespace Padding.Layout

variable {layout grown : Layout} {padding : Padding} {environment environment' : Environment}
variable {scope scope' : ScopeRef}

/-- One scope stands for another one. -/
def Stands (layout : Layout) (scope scope' : ScopeRef) : Prop :=
  layout[scope'.index]? = some (some scope)

/-- Two environments have the scopes that are around a point of a program and of the
expanded one. -/
inductive Around (layout : Layout) : Padding → Environment → Environment → Prop where
  | nil : Around layout [] [] []
  | scope {padding : Padding} {scope scope' : ScopeRef} {outer outer' : Environment}
      (same : layout.Stands scope scope') (around : Around layout padding outer outer') :
      Around layout (0 :: padding) (scope :: outer) (scope' :: outer')
  | between {padding : Padding} {environment outer' : Environment} (scope' : ScopeRef)
      (around : Around layout padding environment outer') :
      Around layout padding.deepen environment (scope' :: outer')

theorem Stands.grow (stands : layout.Stands scope scope') (grows : layout <+: grown) :
    grown.Stands scope scope' := by
  obtain ⟨more, rfl⟩ := grows
  exact (List.getElem?_append_left (List.getElem?_eq_some_iff.mp stands).1).trans stands

/-- With one more scope, no other one stands for anything else. -/
theorem stands_concat {mark : Option ScopeRef} :
    Stands (layout ++ [mark]) scope scope' ↔
      layout.Stands scope scope' ∨ scope'.index = layout.length ∧ mark = some scope := by
  unfold Stands
  rcases Nat.lt_trichotomy scope'.index layout.length with before | here | beyond
  · simp [List.getElem?_append_left before, Nat.ne_of_lt before]
  · simp [here]
  · have outside : (layout ++ [mark]).length ≤ scope'.index := by
      rw [List.length_append]
      exact beyond
    simp [List.getElem?_eq_none outside, Nat.le_of_lt beyond, Nat.ne_of_gt beyond]

theorem Around.grow (around : layout.Around padding environment environment')
    (grows : layout <+: grown) : grown.Around padding environment environment' := by
  induction around with
  | nil => exact .nil
  | scope same _ ih => exact .scope (same.grow grows) ih
  | between scope' _ ih => exact .between scope' ih

/-- At a distance in the first environment there is what stands at the distance in the
second one that takes account of the scopes in between. -/
theorem Around.scopeAt? (around : layout.Around padding environment environment')
    (distance : Nat) :
    Option.Rel layout.Stands (environment.scopeAt? distance)
      (environment'.scopeAt? (padding.shift distance)) := by
  unfold Environment.scopeAt?
  induction around generalizing distance with
  | nil => simp
  | scope same _ ih =>
      cases distance with
      | zero => exact .some same
      | succ distance => simpa using ih distance
  | between scope' _ ih => simpa using ih distance

/-- In a scope that both programs have. -/
theorem Around.atLevel (around : layout.Around (0 :: padding) environment environment') :
    ∃ scope scope' outer outer', environment = scope :: outer ∧ environment' = scope' :: outer' ∧
      layout.Stands scope scope' := by
  generalize shape : 0 :: padding = inside at around
  cases around with
  | nil => cases shape
  | scope same _ => exact ⟨_, _, _, _, rfl, rfl, same⟩
  | @between padding =>
      cases padding <;> cases shape

end Padding.Layout

/-! ## Values -/

/-- The same function with loops expanded in its body. Its declaration stands at a point
around which there are the scopes that it has kept, or in scopes that are entered from
there. Where an initializer stands, nothing is between it and the scope for `this`. -/
structure Closure.Expands (expansion : Expansion) (enter : Padding → Padding)
    (layout : Padding.Layout) (one other : Closure) : Prop where
  identity : other.identity = one.identity
  isInitializer : other.isInitializer = one.isInitializer
  declared : ∃ padding, layout.Around padding one.environment other.environment ∧
    one.declaration.Expands expansion.rule (enter padding) other.declaration ∧
      (one.isInitializer = true → (enter padding).Adjoins 0)

namespace Closure.Expands

variable {expansion : Expansion} {enter : Padding → Padding} {layout grown : Padding.Layout}
variable {one other : Closure}

theorem grow (expands : one.Expands expansion enter layout other) (grows : layout <+: grown) :
    one.Expands expansion enter grown other :=
  have ⟨padding, around, rest⟩ := expands.declared
  ⟨expands.identity, expands.isInitializer, padding, around.grow grows, rest⟩

theorem name (expands : one.Expands expansion enter layout other) : other.name = one.name := by
  obtain ⟨_, _, declared, _⟩ := expands.declared
  exact congrArg Token.lexeme declared.name

theorem arity (expands : one.Expands expansion enter layout other) : other.arity = one.arity := by
  obtain ⟨_, _, declared, _⟩ := expands.declared
  exact congrArg List.length declared.parameters

end Closure.Expands

namespace Expansion

variable (expansion : Expansion)

/-- Functions stand for each other if loops are expanded in them. The methods of a class
are declared in a scope for `this`, which they get only when they are bound to an object. -/
def kinship (layout : Padding.Layout) : Kinship where
  function := Closure.Expands expansion id layout
  method := Closure.Expands expansion (0 :: ·) layout
  identity expands := expands.identity.symm
  name expands := expands.name.symm
  arity expands := expands.arity.symm
  arityOfMethod expands := expands.arity.symm

theorem within_kinship {layout grown : Padding.Layout} (grows : layout <+: grown) :
    (expansion.kinship layout).Within (expansion.kinship grown) :=
  ⟨fun expands => expands.grow grows, fun expands => expands.grow grows⟩

/-- Values that differ in the loops of functions only. -/
abbrev Values (layout : Padding.Layout) : Value → Value → Prop :=
  Value.Akin (expansion.kinship layout)

end Expansion

/-! ## Stores -/

/-- A store that has all that another one has, with values akin: in each scope what is in
the one that it stands for, and the same fields. -/
structure Store.Expands (layout : Padding.Layout) (kinship : Kinship) (one other : Store) :
    Prop where
  size : other.scopes.size = layout.length
  known : ∀ {scope scope' : ScopeRef}, layout.Stands scope scope' →
    scope.index < one.scopes.size
  /-- No two scopes stand for the same one. -/
  apart : ∀ {scope first second : ScopeRef}, layout.Stands scope first →
    layout.Stands scope second → first = second
  bound : ∀ {scope scope' : ScopeRef}, layout.Stands scope scope' →
    (one.scope scope).Paired Eq (Value.Akin kinship) (other.scope scope')
  fields : one.fields.size = other.fields.size
  held : ∀ reference,
    (one.fieldsOf reference).Paired Eq (Value.Akin kinship) (other.fieldsOf reference)

namespace Store.Expands

variable {layout : Padding.Layout} {kinship wider : Kinship} {one other : Store}
variable {scope scope' : ScopeRef}

theorem widen (expands : one.Expands layout kinship other) (within : kinship.Within wider) :
    one.Expands layout wider other :=
  { expands with
    bound := fun stands => (expands.bound stands).imp (·.widen within)
    held := fun reference => (expands.held reference).imp (·.widen within) }

theorem index_lt (expands : one.Expands layout kinship other)
    (stands : layout.Stands scope scope') :
    scope'.index < other.scopes.size :=
  expands.size ▸ (List.getElem?_eq_some_iff.mp stands).1

/-- A scope of the expanded program only. -/
theorem addBetween (expands : one.Expands layout kinship other) (bindings : Bindings Value) :
    one.Expands (layout ++ [none]) kinship (other.addScope bindings).2 := by
  have old {scope scope' : ScopeRef}
      (stands : Padding.Layout.Stands (layout ++ [none]) scope scope') :
      layout.Stands scope scope' := by
    simpa [Padding.Layout.stands_concat] using stands
  refine { expands with
    size := ?_
    known := fun stands => expands.known (old stands)
    apart := fun first second => expands.apart (old first) (old second)
    bound := fun stands => ?_ }
  · simp [Store.addScope, expands.size]
  · rw [scope_addScope, if_neg (Nat.ne_of_lt (expands.index_lt (old stands)))]
    exact expands.bound (old stands)

/-- A scope of both programs. -/
theorem addScope (expands : one.Expands layout kinship other) {bindings bindings' : Bindings Value}
    (paired : bindings.Paired Eq (Value.Akin kinship) bindings') :
    (one.addScope bindings).2.Expands (layout ++ [some ⟨one.scopes.size⟩]) kinship
      (other.addScope bindings').2 := by
  have cases {scope scope' : ScopeRef}
      (stands : Padding.Layout.Stands (layout ++ [some ⟨one.scopes.size⟩]) scope scope') :
      (layout.Stands scope scope' ∧ scope.index ≠ one.scopes.size ∧
        scope'.index ≠ other.scopes.size) ∨
      (scope.index = one.scopes.size ∧ scope'.index = other.scopes.size) := by
    rcases Padding.Layout.stands_concat.mp stands with old | ⟨last, new⟩
    · exact .inl ⟨old, Nat.ne_of_lt (expands.known old), Nat.ne_of_lt (expands.index_lt old)⟩
    · cases new
      exact .inr ⟨rfl, last.trans expands.size.symm⟩
  constructor
  · simp [Store.addScope, expands.size]
  · intro scope scope' stands
    have inside : scope.index ≤ one.scopes.size := by
      rcases Padding.Layout.stands_concat.mp stands with old | ⟨_, new⟩
      · exact Nat.le_of_lt (expands.known old)
      · cases new
        exact Nat.le_refl _
    simpa [Store.addScope] using Nat.lt_succ_of_le inside
  · intro scope first second standsFirst standsSecond
    rcases cases standsFirst with ⟨old, differs, _⟩ | ⟨same, last⟩
    · rcases cases standsSecond with ⟨again, _, _⟩ | ⟨same, _⟩
      · exact expands.apart old again
      · exact absurd same differs
    · rcases cases standsSecond with ⟨_, differs, _⟩ | ⟨_, last'⟩
      · exact absurd same differs
      · exact congrArg ScopeRef.mk (last.trans last'.symm)
  · intro scope scope' stands
    rw [scope_addScope, scope_addScope]
    rcases cases stands with ⟨old, differs, differs'⟩ | ⟨same, same'⟩
    · rw [if_neg differs, if_neg differs']
      exact expands.bound old
    · rw [if_pos same, if_pos same']
      exact paired
  · exact expands.fields
  · exact expands.held

theorem define (expands : one.Expands layout kinship other) (stands : layout.Stands scope scope')
    (name : String) {value value' : Value} (same : value.Akin kinship value') :
    (one.define scope name value).Expands layout kinship (other.define scope' name value') := by
  refine { expands with
    size := (size_scopes_define ..).trans expands.size
    known := fun old => (size_scopes_define ..).symm ▸ expands.known old
    bound := fun {place place'} old => ?_ }
  rw [scope_define, scope_define]
  by_cases here : place = scope
  · subst here
    rw [if_pos ⟨rfl, expands.known stands⟩,
      if_pos ⟨expands.apart old stands, expands.index_lt stands⟩]
    exact (expands.bound stands).set Bindings.oneToOne_eq rfl same
  · have there : place' ≠ scope' := by
      rintro rfl
      exact here (Option.some.inj (Option.some.inj (old.symm.trans stands)))
    rw [if_neg fun both => here both.1, if_neg fun both => there both.1]
    exact expands.bound old

theorem addInstance (expands : one.Expands layout kinship other) :
    one.addInstance.2.Expands layout kinship other.addInstance.2 := by
  refine { expands with fields := ?_, held := fun reference => ?_ }
  · simp [Store.addInstance, expands.fields]
  · rw [fieldsOf_addInstance, fieldsOf_addInstance, expands.fields]
    split
    · exact Bindings.paired_empty
    · exact expands.held reference

theorem setField (expands : one.Expands layout kinship other) (reference : InstanceRef)
    (name : String) {value value' : Value} (same : value.Akin kinship value') :
    (one.setField reference name value).Expands layout kinship
      (other.setField reference name value') := by
  refine { expands with fields := ?_, held := fun place => ?_ }
  · simp [Store.setField, expands.fields]
  · rw [fieldsOf_setField, fieldsOf_setField, expands.fields]
    split
    · exact (expands.held reference).set Bindings.oneToOne_eq rfl same
    · exact expands.held place

/-- At distances of the same scope a name has values akin. -/
theorem lookupAt? (expands : one.Expands layout kinship other) {padding : Padding}
    {environment environment' : Environment}
    (around : layout.Around padding environment environment') (distance : Nat) (name : String) :
    Option.Rel (Value.Akin kinship) (environment.lookupAt? one distance name)
      (environment'.lookupAt? other (padding.shift distance) name) := by
  have scopes := around.scopeAt? distance
  unfold Environment.lookupAt?
  generalize environment.scopeAt? distance = scope,
    environment'.scopeAt? (padding.shift distance) = scope' at scopes
  cases scopes with
  | none => exact .none
  | some stands => exact (expands.bound stands).get? rfl

end Store.Expands

/-! ## Machines -/

/-- Two machines in the same state, the second one of an expanded program, at a point
around which there are scopes in between. -/
structure Machine.Expands (expansion : Expansion) (layout : Padding.Layout) (padding : Padding)
    (one other : Machine) : Prop where
  store : one.store.Expands layout (expansion.kinship layout) other.store
  globals : layout.Stands globalScope globalScope
  around : layout.Around padding one.environment other.environment
  plain : one.distances = expansion.plain
  expanded : other.distances = expansion.expanded
  nextIdentity : other.nextIdentity = one.nextIdentity
  hostCalls : other.hostCalls = one.hostCalls
  sink : other.sink = one.sink
  host : ∃ time, one.host.Tells time ∧ other.host.Tells time

namespace Machine.Expands

variable {expansion : Expansion} {layout : Padding.Layout} {padding : Padding}
variable {one other : Machine}

theorem withStore (expands : one.Expands expansion layout padding other) {store store' : Store}
    (same : store.Expands layout (expansion.kinship layout) store') :
    Machine.Expands expansion layout padding { one with store := store }
      { other with store := store' } :=
  { expands with store := same }

/-- The same machines at a point with other scopes around it. -/
theorem withEnvironment (expands : one.Expands expansion layout padding other) {inside : Padding}
    {environment environment' : Environment}
    (around : layout.Around inside environment environment') :
    Machine.Expands expansion layout inside { one with environment := environment }
      { other with environment := environment' } :=
  { expands with around := around }

/-- With a new scope in both stores the layout grows. -/
theorem addScope (expands : one.Expands expansion layout padding other)
    {bindings bindings' : Bindings Value}
    (paired : bindings.Paired Eq (expansion.Values layout) bindings') :
    Machine.Expands expansion (layout ++ [some ⟨one.store.scopes.size⟩]) padding
      { one with store := (one.store.addScope bindings).2 }
      { other with store := (other.store.addScope bindings').2 } := by
  have grows : layout <+: layout ++ [some ⟨one.store.scopes.size⟩] := List.prefix_append _ _
  have within := expansion.within_kinship grows
  exact { expands with
    store := (expands.store.widen within).addScope (paired.imp (·.widen within))
    globals := expands.globals.grow grows
    around := expands.around.grow grows }

/-- With a new scope in between the layout grows, too. -/
theorem addBetween (expands : one.Expands expansion layout padding other) :
    Machine.Expands expansion (layout ++ [none]) padding.deepen one
      { other with
        store := (other.store.addScope .empty).2
        environment := (other.store.addScope .empty).1 :: other.environment } := by
  have grows : layout <+: layout ++ [none] := List.prefix_append _ _
  exact { expands with
    store := (expands.store.widen (expansion.within_kinship grows)).addBetween _
    globals := expands.globals.grow grows
    around := .between _ (expands.around.grow grows) }

end Machine.Expands

end Lox
