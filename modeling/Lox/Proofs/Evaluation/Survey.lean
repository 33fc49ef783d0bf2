import Lox.Evaluation.Evaluate
import Lox.Proofs.Binding.Visits
import Lox.Proofs.Evaluation.Operators

/-!
# Scopes of the analysis and scopes of a run

A running program is described against the visits of its analysis. An
environment fits the scopes around a visit if it has one scope for each of them
and the globals behind them, and if every name that is ready there is bound
here. A function is located if its body was visited in scopes that its
environment fits. All of this stays true while the store grows.
-/

namespace Lox

/-! ## Growing stores -/

/-- A store after some more scopes and names have come into it. What only classes
bind stays as it is in the scopes that are there. -/
structure Store.Extends (before after : Store) : Prop where
  size : before.scopes.size ≤ after.scopes.size
  bound : ∀ reference name, (before.scope reference).contains name = true →
    (after.scope reference).contains name = true
  keywords : ∀ reference name, reference.index < before.scopes.size → ¬ IsOrdinaryName name →
    (after.scope reference).get? name = (before.scope reference).get? name

namespace Store.Extends

variable {before middle after : Store}

theorem refl (store : Store) : store.Extends store :=
  ⟨Nat.le_refl _, fun _ _ bound => bound, fun _ _ _ _ => rfl⟩

theorem trans (front : before.Extends middle) (back : middle.Extends after) :
    before.Extends after := by
  constructor
  · exact Nat.le_trans front.size back.size
  · exact fun reference name bound => back.bound reference name (front.bound reference name bound)
  · intro reference name allocated keyword
    rw [back.keywords reference name (Nat.lt_of_lt_of_le allocated front.size) keyword,
      front.keywords reference name allocated keyword]

/-- Fields have no part in it. -/
theorem of_scopes (same : after.scopes = before.scopes) : before.Extends after := by
  constructor
  · simp [same]
  · intro reference name bound
    rwa [Store.scope, same]
  · intro reference name _ _
    rw [Store.scope, Store.scope, same]

theorem define (store : Store) (reference : ScopeRef) {name : String}
    (ordinary : IsOrdinaryName name) (value : Value) :
    store.Extends (store.define reference name value) := by
  constructor
  · simp
  · intro other text bound
    rw [scope_define]
    split
    · next here =>
        rw [Bindings.contains_set, ← here.1, bound, Bool.or_true]
    · exact bound
  · intro other text _ keyword
    rw [scope_define]
    split
    · next here =>
        rw [Bindings.get?_set, if_neg, here.1]
        exact fun same => keyword (same ▸ ordinary)
    · rfl

theorem addScope (store : Store) (bindings : Bindings Value) :
    store.Extends (store.addScope bindings).2 := by
  constructor
  · simp [Store.addScope]
  · intro other name bound
    rw [scope_addScope]
    split
    · next new =>
        have absent : store.scope other = .empty := by simp [Store.scope, new]
        rw [absent] at bound
        cases bound
    · exact bound
  · intro other name allocated _
    rw [scope_addScope, if_neg (Nat.ne_of_lt allocated)]

end Store.Extends

/-! ## What is known about a program -/

/-- The visits made in the programs of a session. -/
structure Survey where
  visited : Visit → Prop
  contains : ∀ {outer inner : Visit}, visited outer → outer.Contains inner → visited inner
  placed : ∀ {visit : Visit}, visited visit → visit.node.Placed

namespace Survey

variable (survey : Survey)

/-- Every statement of a list is visited at its place. -/
def Lists (statements : List Stmt) (analysis : Analysis) (loose : List (List String)) : Prop :=
  ∀ front statement back, statements = front ++ statement :: back →
    survey.visited
      ⟨.stmt statement, analysis.stmts front, passing (Stmt.listBareNames front) loose⟩

variable {survey} {loose : List (List String)}

theorem Lists.placed {statements : List Stmt} {analysis : Analysis}
    (lists : survey.Lists statements analysis loose) : Stmt.ListPlaced statements := by
  apply Stmt.listPlaced_iff.mpr
  intro statement inside
  obtain ⟨front, back, shape⟩ := List.append_of_mem inside
  exact survey.placed (lists front statement back shape)

theorem Lists.head {first : Stmt} {rest : List Stmt} {analysis : Analysis}
    (lists : survey.Lists (first :: rest) analysis loose) :
    survey.visited ⟨.stmt first, analysis, loose⟩ := by
  have visited := lists [] first rest rfl
  rw [Analysis.stmts] at visited
  simpa [Stmt.listBareNames] using visited

theorem Lists.tail {first : Stmt} {rest : List Stmt} {analysis : Analysis}
    (lists : survey.Lists (first :: rest) analysis loose) :
    survey.Lists rest (analysis.stmt first) (passing first.bareNames loose) := by
  intro front statement back shape
  have visited := lists (first :: front) statement back (by rw [shape, List.cons_append])
  rw [Analysis.stmts] at visited
  simpa [Stmt.listBareNames, passing_append] using visited

theorem Lists.front {front back : List Stmt} {analysis : Analysis}
    (lists : survey.Lists (front ++ back) analysis loose) :
    survey.Lists front analysis loose := by
  intro earlier statement later shape
  exact lists earlier statement (later ++ back) (by simp [shape])

end Survey

/-! ## Environments -/

namespace Environment

/-- An environment fits the scopes around a visit. In each scope of the run every
name is bound that is ready in the scope of the analysis, apart from those that
may be left unbound there. The names that only classes bind are bound nowhere
else. -/
inductive Fits (store : Store) :
    List (Bindings Readiness) → List (List String) → Environment → Prop where
  | globals : Fits store [] [] globalEnvironment
  | inside {scope : Bindings Readiness} {scopes : List (Bindings Readiness)}
      {names : List String} {loose : List (List String)} {reference : ScopeRef}
      {outer : Environment} (apart : reference ≠ globalScope)
      (allocated : reference.index < store.scopes.size)
      (bound : ∀ name, scope.get? name = some .ready → name ∉ names →
        (store.scope reference).contains name = true)
      (keywords : ∀ name, ¬ IsOrdinaryName name →
        (store.scope reference).contains name = true → scope.contains name = true)
      (around : Fits store scopes loose outer) :
      Fits store (scope :: scopes) (names :: loose) (reference :: outer)

namespace Fits

variable {before after store : Store} {scopes : List (Bindings Readiness)}
variable {loose : List (List String)} {environment : Environment}

theorem grow (fits : Fits before scopes loose environment) (growth : before.Extends after) :
    Fits after scopes loose environment := by
  induction fits with
  | globals => exact .globals
  | inside apart allocated bound keywords _ ih =>
      apply Fits.inside apart
      · exact Nat.lt_of_lt_of_le allocated growth.size
      · exact fun name ready kept => growth.bound _ name (bound name ready kept)
      · intro name keyword held
        apply keywords name keyword
        rwa [Bindings.contains, ← growth.keywords _ name allocated keyword]
      · exact ih

/-- A name that is ready in the innermost scope, once it is bound there. -/
theorem declaring (fits : Fits store scopes loose environment) {name : String}
    (bound : ∀ reference outer, environment = reference :: outer → scopes ≠ [] →
      (store.scope reference).contains name = true) :
    Fits store (declaring [name] scopes) loose environment := by
  cases fits with
  | globals => exact .globals
  | @inside scope outer names loose reference rest apart allocated earlier keywords around =>
      rw [declaring_single]
      apply Fits.inside apart allocated _ _ around
      · intro other ready kept
        rw [Bindings.get?_set] at ready
        split at ready
        · next same =>
            subst same
            exact bound reference rest rfl (by simp)
        · exact earlier other ready kept
      · intro other keyword held
        rw [Bindings.contains_set, keywords other keyword held, Bool.or_true]

/-- Names in a scope of the analysis that are ready are among those declared last
or were there before. -/
theorem ready_of_declared {names : List String} {name : String} (scope : Bindings Readiness)
    (ready : (names.foldl (fun scope name => scope.set name Readiness.ready) scope).get? name =
      some .ready) : name ∈ names ∨ scope.get? name = some .ready := by
  induction names generalizing scope with
  | nil => exact .inr ready
  | cons first rest ih =>
      rcases ih _ ready with later | here
      · exact .inl (List.mem_cons_of_mem _ later)
      · rw [Bindings.get?_set] at here
        split at here
        · next same => exact .inl (by simp [same])
        · exact .inr here

/-- Names in a scope of the analysis stay there when more are declared. -/
theorem contains_of_declared {names : List String} {name : String} {scope : Bindings Readiness}
    (held : scope.contains name = true) :
    (names.foldl (fun scope name => scope.set name Readiness.ready) scope).contains name =
      true :=
  (contains_declared names scope name).mpr (.inr held)

theorem contains_of_mem {names : List String} {name : String} {scope : Bindings Readiness}
    (declared : name ∈ names) :
    (names.foldl (fun scope name => scope.set name Readiness.ready) scope).contains name =
      true :=
  (contains_declared names scope name).mpr (.inl declared)

/-- Names that may be left unbound need no binding. -/
theorem passing (fits : Fits store scopes loose environment) (names : List String) :
    Fits store (Lox.declaring names scopes) (passing names loose) environment := by
  cases fits with
  | globals => exact .globals
  | inside apart allocated earlier keywords around =>
      apply Fits.inside apart allocated _ _ around
      · intro other ready kept
        rw [List.mem_append, not_or] at kept
        rcases ready_of_declared _ ready with declared | before
        · exact absurd declared kept.2
        · exact earlier other before kept.1
      · exact fun other keyword held => contains_of_declared (keywords other keyword held)

/-- A name that is not ready yet needs no binding. -/
theorem pending {analysis : Analysis} (fits : Fits store analysis.scopes loose environment)
    (name : Token) : Fits store (analysis.declare name).scopes loose environment := by
  unfold Analysis.declare
  cases around : analysis.scopes with
  | nil => simpa [around] using fits
  | cons scope outer =>
      simp only
      split
      · simpa [Analysis.report, around] using fits
      · rw [around] at fits
        cases fits with
        | inside apart allocated earlier keywords inner =>
            apply Fits.inside apart allocated _ _ inner
            · intro other ready kept
              rw [Bindings.get?_set] at ready
              split at ready
              · cases ready
              · exact earlier other ready kept
            · intro other keyword held
              rw [Bindings.contains_set, keywords other keyword held, Bool.or_true]

/-- A new scope with what is ready in it. -/
theorem addScope (fits : Fits store scopes loose environment) {scope : Bindings Readiness}
    {bindings : Bindings Value} (globals : 0 < store.scopes.size)
    (bound : ∀ name, scope.get? name = some .ready → bindings.contains name = true)
    (keywords : ∀ name, ¬ IsOrdinaryName name → bindings.contains name = true →
      scope.contains name = true) :
    Fits (store.addScope bindings).2 (scope :: scopes) ([] :: loose)
      ((store.addScope bindings).1 :: environment) := by
  apply Fits.inside
  · intro same
    have index := congrArg ScopeRef.index same
    simp only [Store.addScope_fst, globalScope] at index
    omega
  · simp [Store.addScope]
  · intro name ready _
    rw [Store.scope_addScope, if_pos (Store.addScope_fst ..)]
    exact bound name ready
  · intro name keyword held
    rw [Store.scope_addScope, if_pos (Store.addScope_fst ..)] at held
    exact keywords name keyword held
  · exact fits.grow (.addScope store bindings)

end Fits

end Environment

/-! ## Values -/

namespace Survey

variable (survey : Survey)

/-- A function whose body was visited in scopes that its environment fits. -/
def Located (store : Store) (closure : Closure) : Prop :=
  ∃ (analysis : Analysis) (body : Body) (loose : List (List String)),
    survey.Lists closure.declaration.body (analysis.enterFunction closure.declaration body)
        ([] :: loose) ∧
      Environment.Fits store analysis.scopes loose closure.environment

/-- A method whose body was visited in a scope for `this` inside scopes that its
environment fits. -/
def LocatedMethod (store : Store) (method : Closure) : Prop :=
  ∃ (analysis : Analysis) (body : Body) (outer : List (Bindings Readiness))
    (loose : List (List String)),
    survey.Lists method.declaration.body (analysis.enterFunction method.declaration body)
        ([] :: [] :: loose) ∧
      analysis.scopes = Bindings.empty.set "this" .ready :: outer ∧
      Environment.Fits store outer loose method.environment

/-- A class all of whose methods are located, also the inherited ones. -/
def LocatedClass (store : Store) (cls : Class) : Prop :=
  ∀ layer ∈ cls.chain, ∀ name method, layer.methods.get? name = some method →
    survey.LocatedMethod store method

/-- A value with no function in it that is not located. -/
def LocatedValue (store : Store) : Value → Prop
  | .function closure => survey.Located store closure
  | .cls cls => survey.LocatedClass store cls
  | .object object => survey.LocatedClass store object.cls
  | .nil | .bool _ | .number _ | .string _ | .native _ => True

variable {survey} {before after : Store}

theorem LocatedMethod.grow {method : Closure} (located : survey.LocatedMethod before method)
    (growth : before.Extends after) : survey.LocatedMethod after method := by
  obtain ⟨analysis, body, outer, loose, lists, scopes, fits⟩ := located
  exact ⟨analysis, body, outer, loose, lists, scopes, fits.grow growth⟩

theorem LocatedClass.grow {cls : Class} (located : survey.LocatedClass before cls)
    (growth : before.Extends after) : survey.LocatedClass after cls :=
  fun layer inside name method found => (located layer inside name method found).grow growth

theorem LocatedValue.grow {value : Value} (located : survey.LocatedValue before value)
    (growth : before.Extends after) : survey.LocatedValue after value := by
  cases value with
  | function closure =>
      obtain ⟨analysis, body, loose, lists, fits⟩ := located
      exact ⟨analysis, body, loose, lists, fits.grow growth⟩
  | cls cls => exact LocatedClass.grow located growth
  | object object => exact LocatedClass.grow located growth
  | nil => trivial
  | bool _ => trivial
  | number _ => trivial
  | string _ => trivial
  | native _ => trivial

/-- A method found in a class is one of its layers' methods. -/
theorem LocatedClass.method {cls : Class} {store : Store} (located : survey.LocatedClass store cls)
    {name : String} {method : Closure} (found : cls.method? name = some method) :
    survey.LocatedMethod store method := by
  obtain ⟨layer, inside, here⟩ := List.exists_of_findSome?_eq_some found
  exact located layer inside name method here

end Survey

theorem Value.IsPlain.located {survey : Survey} {value : Value} (plain : value.IsPlain)
    (store : Store) : survey.LocatedValue store value := by
  cases value with
  | function _ => exact plain.elim
  | cls _ => exact plain.elim
  | object _ => exact plain.elim
  | _ => trivial

end Lox
