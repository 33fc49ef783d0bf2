import Lox.Proofs.Binding.Keywords
import Lox.Proofs.Evaluation.Survey
import Lox.Proofs.Lexical.Erasure
import Lox.Proofs.Lexical.Guarantees

/-!
# Scopes and cells side by side

A machine is compared with a state of the direct evaluator. Every local name that
was declared in a scope of the machine has a cell of its own, and what the scope
binds it to is in that cell. The names at a point match the scopes of the
analysis there if each name leads to the cell of the very scope in which the
analysis finds it.
-/

namespace Lox.Lexical

/-- Where the names that were declared in scopes have their cells. -/
abbrev Layout := ScopeRef → String → Option Nat

/-- A machine and a state of the direct evaluator, with the cells of names. -/
structure Coupling where
  machine : Machine
  state : State
  layout : Layout

variable {before middle after coupling : Coupling}

/-! ## Growing -/

/-- Both sides after some more steps. Names keep their cells and functions keep
what they captured. -/
structure Coupling.Extends (before after : Coupling) : Prop where
  store : before.machine.store.Extends after.machine.store
  identities : before.machine.nextIdentity ≤ after.machine.nextIdentity
  captured : ∀ identity < before.machine.nextIdentity,
    after.state.captured[identity]? = before.state.captured[identity]?
  layout : ∀ scope name cell, before.layout scope name = some cell →
    after.layout scope name = some cell

namespace Coupling.Extends

theorem refl (coupling : Coupling) : coupling.Extends coupling :=
  ⟨.refl _, Nat.le_refl _, fun _ _ => rfl, fun _ _ _ placed => placed⟩

theorem trans (front : before.Extends middle) (back : middle.Extends after) :
    before.Extends after := by
  constructor
  · exact front.store.trans back.store
  · exact Nat.le_trans front.identities back.identities
  · intro identity below
    rw [back.captured identity (Nat.lt_of_lt_of_le below front.identities),
      front.captured identity below]
  · exact fun scope name cell placed =>
      back.layout scope name cell (front.layout scope name cell placed)

end Coupling.Extends

/-! ## Names at a point -/

/-- The names at a point match the scopes that the analysis has there, in an
environment. A name in a scope has its cell in the layout, and all other names
have the cells that they have outside of that scope. A name that is ready is bound
by now. -/
inductive Coupling.Matches (coupling : Coupling) :
    List (Bindings Readiness) → Environment → Names → Prop where
  | outside : Matches coupling [] globalEnvironment none
  | inside {scope : Bindings Readiness} {scopes : List (Bindings Readiness)}
      {reference : ScopeRef} {outer : Environment} {names : Names} {cells : Bindings Nat}
      (apart : reference ≠ globalScope)
      (allocated : reference.index < coupling.machine.store.scopes.size)
      (bound : ∀ name, scope.get? name = some .ready →
        (coupling.machine.store.scope reference).contains name = true)
      (own : ∀ name, scope.contains name = true →
        ∃ cell, coupling.layout reference name = some cell ∧ cells.get? name = some cell)
      (others : ∀ name, scope.contains name = false → cells.get? name = names.cell? name)
      (around : Matches coupling scopes outer names) :
      Matches coupling (scope :: scopes) (reference :: outer) (some cells)

namespace Coupling.Matches

variable {scopes : List (Bindings Readiness)} {environment : Environment} {names : Names}
variable {name : String} {distance : Nat}

theorem grow (matching : before.Matches scopes environment names)
    (growth : before.Extends after) : after.Matches scopes environment names := by
  induction matching with
  | outside => exact .outside
  | inside apart allocated bound own others _ ih =>
      apply Matches.inside apart
      · exact Nat.lt_of_lt_of_le allocated growth.store.size
      · exact fun name ready => growth.store.bound _ name (bound name ready)
      · intro name held
        obtain ⟨cell, placed, found⟩ := own name held
        exact ⟨cell, growth.layout _ name cell placed, found⟩
      · exact others
      · exact ih

/-- A name in no scope has no cell. -/
theorem absent (matching : coupling.Matches scopes environment names)
    (unfound : nearest scopes name = none) : names.cell? name = none := by
  induction matching with
  | outside => rfl
  | @inside scope _ _ _ _ _ _ _ _ _ others _ ih =>
      rw [nearest_cons] at unfound
      split at unfound
      · cases unfound
      · next absent =>
          exact (others name (Bool.eq_false_iff.mpr absent)).trans
            (ih (Option.map_eq_none_iff.mp unfound))

/-- A name in a scope has the cell that belongs to the nearest one. -/
theorem present (matching : coupling.Matches scopes environment names)
    (found : nearest scopes name = some distance) :
    ∃ scope cell, environment.scopeAt? distance = some scope ∧
      coupling.layout scope name = some cell ∧ names.cell? name = some cell := by
  induction matching generalizing distance with
  | outside => cases found
  | @inside scope _ reference _ _ _ _ _ _ own others _ ih =>
      rw [nearest_cons] at found
      split at found
      · next here =>
          cases found
          obtain ⟨cell, placed, held⟩ := own name here
          exact ⟨reference, cell, rfl, placed, held⟩
      · next absent =>
          obtain ⟨further, foundOuter, rfl⟩ := Option.map_eq_some_iff.mp found
          obtain ⟨scope, cell, there, placed, held⟩ := ih foundOuter
          exact ⟨scope, cell, there, placed,
            (others name (Bool.eq_false_iff.mpr absent)).trans held⟩

/-- A name that is ready in the nearest scope is bound there. -/
theorem ready (matching : coupling.Matches scopes environment names)
    (found : nearest scopes name = some distance)
    (settled : ∀ scope, scopes[distance]? = some scope → scope.get? name = some .ready) :
    ∃ scope, environment.scopeAt? distance = some scope ∧
      (coupling.machine.store.scope scope).contains name = true := by
  induction matching generalizing distance with
  | outside => cases found
  | @inside scope _ reference _ _ _ _ _ bound _ _ _ ih =>
      rw [nearest_cons] at found
      split at found
      · cases found
        exact ⟨reference, rfl, bound name (settled scope rfl)⟩
      · obtain ⟨further, foundOuter, rfl⟩ := Option.map_eq_some_iff.mp found
        exact ih foundOuter settled

end Coupling.Matches

/-! ## Values -/

variable {survey : Survey}

/-- A function that was declared at a point of the analysis, with names that match
the scopes there. An initializer was declared in a class. -/
structure Coupling.Declares (survey : Survey) (coupling : Coupling) (closure : Closure)
    (analysis : Analysis) : Prop where
  identity : closure.identity < coupling.machine.nextIdentity
  lists : ∃ body loose, survey.Lists closure.declaration.body
    (analysis.enterFunction closure.declaration body) loose
  matching : coupling.Matches analysis.scopes closure.environment
    (coupling.state.namesOf closure)
  receiver : closure.isInitializer = true →
    ∃ outer, analysis.scopes = Bindings.empty.set "this" .ready :: outer

/-- A method that was declared in a class. The scope of its object is not there
yet. -/
structure Coupling.DeclaresMethod (survey : Survey) (coupling : Coupling) (method : Closure)
    (analysis : Analysis) (outer : List (Bindings Readiness)) : Prop where
  identity : method.identity < coupling.machine.nextIdentity
  lists : ∃ body loose, survey.Lists method.declaration.body
    (analysis.enterFunction method.declaration body) loose
  scopes : analysis.scopes = Bindings.empty.set "this" .ready :: outer
  matching : coupling.Matches outer method.environment (coupling.state.namesOf method)

/-- A class all of whose methods were declared at some point. -/
def Coupling.HoldsClass (survey : Survey) (coupling : Coupling) (cls : Class) : Prop :=
  ∀ layer ∈ cls.chain, ∀ name method, layer.methods.get? name = some method →
    ∃ analysis outer, coupling.DeclaresMethod survey method analysis outer

/-- A value whose functions were all declared at some point. -/
def Coupling.Holds (survey : Survey) (coupling : Coupling) : Value → Prop
  | .function closure => ∃ analysis, coupling.Declares survey closure analysis
  | .cls found => coupling.HoldsClass survey found
  | .object found => coupling.HoldsClass survey found.cls
  | .nil | .bool _ | .number _ | .string _ | .native _ => True

/-- Something to call whose functions were all declared at some point. -/
def Coupling.HoldsCallable (survey : Survey) (coupling : Coupling) : Callable → Prop
  | .native _ => True
  | .function closure => ∃ analysis, coupling.Declares survey closure analysis
  | .cls found => coupling.HoldsClass survey found

namespace Coupling

theorem namesOf_grow {closure : Closure} (growth : before.Extends after)
    (known : closure.identity < before.machine.nextIdentity) :
    after.state.namesOf closure = before.state.namesOf closure := by
  unfold State.namesOf
  rw [growth.captured _ known]

theorem Declares.grow {closure : Closure} {analysis : Analysis}
    (declared : before.Declares survey closure analysis) (growth : before.Extends after) :
    after.Declares survey closure analysis := by
  constructor
  · exact Nat.lt_of_lt_of_le declared.identity growth.identities
  · exact declared.lists
  · rw [namesOf_grow growth declared.identity]
    exact declared.matching.grow growth
  · exact declared.receiver

theorem DeclaresMethod.grow {method : Closure} {analysis : Analysis}
    {outer : List (Bindings Readiness)}
    (declared : before.DeclaresMethod survey method analysis outer)
    (growth : before.Extends after) : after.DeclaresMethod survey method analysis outer := by
  constructor
  · exact Nat.lt_of_lt_of_le declared.identity growth.identities
  · exact declared.lists
  · exact declared.scopes
  · rw [namesOf_grow growth declared.identity]
    exact declared.matching.grow growth

theorem HoldsClass.grow {cls : Class} (holds : before.HoldsClass survey cls)
    (growth : before.Extends after) : after.HoldsClass survey cls := by
  intro layer inside name method found
  obtain ⟨analysis, outer, declared⟩ := holds layer inside name method found
  exact ⟨analysis, outer, declared.grow growth⟩

theorem Holds.grow {value : Value} (holds : before.Holds survey value)
    (growth : before.Extends after) : after.Holds survey value := by
  cases value with
  | function closure =>
      obtain ⟨analysis, declared⟩ := holds
      exact ⟨analysis, declared.grow growth⟩
  | cls cls => exact HoldsClass.grow holds growth
  | object object => exact HoldsClass.grow holds growth
  | _ => trivial

theorem HoldsClass.method {cls : Class} (holds : coupling.HoldsClass survey cls) {name : String}
    {method : Closure} (found : cls.method? name = some method) :
    ∃ analysis outer, coupling.DeclaresMethod survey method analysis outer := by
  obtain ⟨layer, inside, here⟩ := List.exists_of_findSome?_eq_some found
  exact holds layer inside name method here

/-- A class whose superclass is held is held as well. -/
theorem holdsClass_extend {own : ClassLayer} {superclass : Option Class}
    (methods : ∀ name method, own.methods.get? name = some method →
      ∃ analysis outer, coupling.DeclaresMethod survey method analysis outer)
    (above : ∀ cls, superclass = some cls → coupling.HoldsClass survey cls) :
    coupling.HoldsClass survey (.extend own superclass) := by
  intro layer inside name method held
  cases superclass with
  | none =>
      obtain rfl := List.mem_singleton.mp inside
      exact methods name method held
  | some cls =>
      rcases List.mem_cons.mp inside with rfl | outer
      · exact methods name method held
      · exact above cls rfl layer outer name method held

theorem Holds.callable {value : Value} {callable : Callable} (holds : coupling.Holds survey value)
    (found : value.callable? = some callable) : coupling.HoldsCallable survey callable := by
  cases value with
  | native host =>
      cases found
      trivial
  | function closure =>
      cases found
      exact holds
  | cls cls =>
      cases found
      exact holds
  | _ => cases found

end Coupling

theorem holds_of_isPlain {value : Value} (plain : value.IsPlain) :
    coupling.Holds survey value := by
  cases value with
  | function _ => exact plain.elim
  | cls _ => exact plain.elim
  | object _ => exact plain.elim
  | _ => trivial

theorem erased_of_isPlain {value : Value} (plain : value.IsPlain) : value.erased = value := by
  cases value with
  | function _ => exact plain.elim
  | cls _ => exact plain.elim
  | object _ => exact plain.elim
  | _ => rfl

/-! ## Sound couplings -/

/-- What is known while a program runs: the visits made so far, and the distances
against which they were accepted. Loops with a variable of their own stand in
lists of statements. -/
structure Setting where
  survey : Survey
  distances : Distances
  accepted : ∀ visit, survey.visited visit → visit.Accepted distances
  guarded : ∀ visit, survey.visited visit → visit.Guarded
  orderly : ∀ visit, survey.visited visit → visit.node.Orderly

/-- Both sides hold the same, apart from the environments of functions. -/
structure Coupling.Sound (survey : Survey) (coupling : Coupling) : Prop where
  globals : 0 < coupling.machine.store.scopes.size
  stored : ∀ scope name value, (coupling.machine.store.scope scope).get? name = some value →
    coupling.Holds survey value
  fielded : ∀ reference name value,
    (coupling.machine.store.fieldsOf reference).get? name = some value →
      coupling.Holds survey value
  /-- The host hands out no functions and does not look at what it is given. -/
  plain : ∀ function calls arguments value,
    coupling.machine.host function calls arguments = .ok value → value.IsPlain
  blind : ∀ function calls arguments arguments',
    coupling.machine.host function calls arguments =
      coupling.machine.host function calls arguments'
  host : coupling.state.host = coupling.machine.host
  hostCalls : coupling.state.hostCalls = coupling.machine.hostCalls
  sink : coupling.state.sink = coupling.machine.sink
  captured : coupling.state.captured.size = coupling.machine.nextIdentity
  fields : coupling.state.fields =
    coupling.machine.store.fields.map (Bindings.map Value.erased)
  global : coupling.state.globals =
    (coupling.machine.store.scope globalScope).map Value.erased
  cell : ∀ scope name cell value, coupling.layout scope name = some cell →
    (coupling.machine.store.scope scope).get? name = some value →
      coupling.state.cells[cell]? = some value.erased
  /-- A local name that is bound has a cell. -/
  known : ∀ scope name value, scope ≠ globalScope →
    (coupling.machine.store.scope scope).get? name = some value →
      coupling.layout scope name ≠ none
  placed : ∀ scope name cell, coupling.layout scope name = some cell →
    cell < coupling.state.cells.size ∧ scope ≠ globalScope ∧
      scope.index < coupling.machine.store.scopes.size
  apart : ∀ scope scope' name name' cell, coupling.layout scope name = some cell →
    coupling.layout scope' name' = some cell → scope = scope' ∧ name = name'

/-- From one coupling to another one on the way through a run. Names are declared in
the innermost scope and in scopes that are new. -/
structure Coupling.Grows (survey : Survey) (declared : List String) (before after : Coupling) :
    Prop extends before.Extends after where
  sound : after.Sound survey
  environment : after.machine.environment = before.machine.environment
  distances : after.machine.distances = before.machine.distances
  kept : ∀ scope name, scope.index < before.machine.store.scopes.size →
    after.layout scope name ≠ none → before.layout scope name = none →
      before.machine.environment.head? = some scope ∧ name ∈ declared

namespace Coupling

variable {declared : List String}

theorem Sound.grows (sound : before.Sound survey) : before.Grows survey declared before :=
  ⟨.refl _, sound, rfl, rfl, fun _ _ _ held free => absurd free held⟩

theorem Grows.trans (front : before.Grows survey declared middle)
    (back : middle.Grows survey declared after) : before.Grows survey declared after := by
  refine ⟨front.toExtends.trans back.toExtends, back.sound,
    back.environment.trans front.environment, back.distances.trans front.distances, ?_⟩
  intro scope name allocated held free
  by_cases between : middle.layout scope name = none
  · have later := back.kept scope name (Nat.lt_of_lt_of_le allocated front.store.size) held between
    rwa [front.environment] at later
  · exact front.kept scope name allocated between free

theorem Grows.weaken {more : List String} (grows : before.Grows survey declared after)
    (subset : declared ⊆ more) : before.Grows survey more after := by
  refine ⟨grows.toExtends, grows.sound, grows.environment, grows.distances, ?_⟩
  intro scope name allocated held free
  obtain ⟨innermost, inside⟩ := grows.kept scope name allocated held free
  exact ⟨innermost, subset inside⟩

end Coupling

/-! ## Points of a run -/

/-- The point that a run has come to: the names match the scopes of the analysis in
the environment, and no name has a cell in the innermost scope that the analysis
does not have there. -/
structure Coupling.Stands (coupling : Coupling) (scopes : List (Bindings Readiness))
    (names : Names) : Prop where
  matching : coupling.Matches scopes coupling.machine.environment names
  tight : ∀ scope outer reference environment, scopes = scope :: outer →
    coupling.machine.environment = reference :: environment →
      ∀ name, coupling.layout reference name ≠ none → scope.contains name = true

namespace Coupling

variable {scopes : List (Bindings Readiness)} {names names' : Names} {declared : List String}

theorem Matches.follow (matching : before.Matches scopes before.machine.environment names)
    (grows : before.Grows survey declared after) :
    after.Matches scopes after.machine.environment names := by
  rw [grows.environment]
  exact matching.grow grows.toExtends

/-- The names declared on the way are in the innermost scope. -/
theorem Stands.declaring (stands : before.Stands scopes names)
    (grows : before.Grows survey declared after)
    (matching : after.Matches (Lox.declaring declared scopes) after.machine.environment names') :
    after.Stands (Lox.declaring declared scopes) names' := by
  refine ⟨matching, ?_⟩
  intro scope outer reference environment shape around name placed
  rw [grows.environment] at around
  cases scopes with
  | nil => cases shape
  | cons first rest =>
      cases shape
      have allocated : reference.index < before.machine.store.scopes.size := by
        have inside := stands.matching
        rw [around] at inside
        cases inside with
        | inside _ allocated _ _ _ _ => exact allocated
      by_cases free : before.layout reference name = none
      · obtain ⟨-, inside⟩ := grows.kept reference name allocated placed free
        exact Environment.Fits.contains_of_mem inside
      · exact Environment.Fits.contains_of_declared
          (stands.tight _ _ reference environment rfl around name free)

/-- Where nothing is declared a run stays at its point. -/
theorem Stands.follow (stands : before.Stands scopes names)
    (grows : before.Grows survey [] after) : after.Stands scopes names := by
  have matching := stands.matching.follow grows
  rw [← declaring_nil scopes] at matching ⊢
  exact stands.declaring grows matching

end Coupling

end Lox.Lexical
