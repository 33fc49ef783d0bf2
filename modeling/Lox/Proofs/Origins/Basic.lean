import Lox.Proofs.Evaluation.Restoring

/-!
# Where globals and functions come from

Some names are allowed to be global and some functions are allowed to be called. A
machine is permitted if it has no other globals, and holds no other functions. Single
steps keep it so. Those that bind a name in the global scope have to be watched, and those
that make a function: all others only pass on what is there.
-/

namespace Lox

/-- The names that may be global and the functions that may be called. -/
structure Origins where
  name : String → Prop
  function : Closure → Prop

/-- Functions are told by what they are declared as. -/
def Origins.ofDeclarations (name : String → Prop) (declaration : FunctionDecl → Prop) : Origins :=
  ⟨name, fun closure => declaration closure.declaration⟩

namespace Origins

variable (origins : Origins)

/-! ## What is permitted -/

/-- A method that is permitted once it is bound to an object, in a scope of its own. -/
def PermitsMethod (method : Closure) : Prop :=
  ∀ identity scope,
    origins.function { method with
      identity := identity, environment := scope :: method.environment }

/-- A class with permitted methods, also those it inherits. -/
def PermitsClass (cls : Class) : Prop :=
  ∀ layer ∈ cls.chain, ∀ name method, layer.methods.get? name = some method →
    origins.PermitsMethod method

/-- A value with permitted functions in it. -/
def PermitsValue : Value → Prop
  | .function closure => origins.function closure
  | .cls cls => origins.PermitsClass cls
  | .object object => origins.PermitsClass object.cls
  | .nil | .bool _ | .number _ | .string _ | .native _ => True

/-- Something to call with permitted functions in it. -/
def PermitsCallable : Callable → Prop
  | .native _ => True
  | .function closure => origins.function closure
  | .cls cls => origins.PermitsClass cls

/-- A flow with a permitted value, if it has one. -/
def PermitsFlow : Flow → Prop
  | .normal => True
  | .returned value => origins.PermitsValue value

/-- A machine with a global scope and permitted names in it that holds permitted values
only. Neither does its host give it others. -/
structure Permits (machine : Machine) : Prop where
  allocated : 0 < machine.store.scopes.size
  globals : ∀ name, (machine.store.scope globalScope).contains name = true → origins.name name
  held : ∀ scope name value, (machine.store.scope scope).get? name = some value →
    origins.PermitsValue value
  fields : ∀ reference name value, (machine.store.fieldsOf reference).get? name = some value →
    origins.PermitsValue value
  host : ∀ function calls arguments value,
    machine.host function calls arguments = .ok value → origins.PermitsValue value

variable {origins} {before after : Machine}

theorem permits_of_isPlain {value : Value} (plain : value.IsPlain) :
    origins.PermitsValue value := by
  cases value with
  | function _ => exact plain.elim
  | cls _ => exact plain.elim
  | object _ => exact plain.elim
  | _ => trivial

theorem PermitsValue.callable {value : Value} {callable : Callable}
    (permitted : origins.PermitsValue value) (found : value.callable? = some callable) :
    origins.PermitsCallable callable := by
  cases value with
  | native | function | cls =>
      cases found
      exact permitted
  | _ => cases found

/-- A method that is found in a class is one of its own or one it inherits. -/
theorem PermitsClass.method {cls : Class} {name : String} {method : Closure}
    (permitted : origins.PermitsClass cls) (found : cls.method? name = some method) :
    origins.PermitsMethod method := by
  obtain ⟨layer, inside, here⟩ := List.exists_of_findSome?_eq_some found
  exact permitted layer inside name method here

/-- Only the store and the host matter. -/
theorem Permits.of_same (permits : origins.Permits before) (store : after.store = before.store)
    (host : after.host = before.host) : origins.Permits after := by
  obtain ⟨allocated, globals, held, fields, plain⟩ := permits
  rw [← store] at allocated globals held fields
  rw [← host] at plain
  exact ⟨allocated, globals, held, fields, plain⟩

/-- A name bound in a scope, which has to be permitted if the scope is the global one. -/
theorem Permits.define (permits : origins.Permits before) {scope : ScopeRef} {name : String}
    (global : scope = globalScope → origins.name name) {value : Value}
    (permitted : origins.PermitsValue value) :
    origins.Permits { before with store := before.store.define scope name value } := by
  constructor
  · simpa using permits.allocated
  · intro text bound
    dsimp only at bound
    rw [Store.scope_define] at bound
    split at bound
    · next here =>
        rw [Bindings.contains_set, Bool.or_eq_true, decide_eq_true_eq, ← here.1] at bound
        rcases bound with rfl | earlier
        · exact global here.1.symm
        · exact permits.globals text earlier
    · exact permits.globals text bound
  · intro other text found held
    dsimp only at held
    rw [Store.scope_define] at held
    split at held
    · rw [Bindings.get?_set] at held
      split at held
      · cases held
        exact permitted
      · exact permits.held _ _ _ held
    · exact permits.held _ _ _ held
  · exact permits.fields
  · exact permits.host

/-- A new scope, which is not the global one. -/
theorem Permits.addScope (permits : origins.Permits before) {bindings : Bindings Value}
    (permitted : ∀ name value, bindings.get? name = some value → origins.PermitsValue value) :
    origins.Permits { before with store := (before.store.addScope bindings).2 } := by
  constructor
  · simp [Store.addScope]
  · intro text bound
    have older : globalScope.index ≠ before.store.scopes.size := Nat.ne_of_lt permits.allocated
    dsimp only at bound
    rw [Store.scope_addScope, if_neg older] at bound
    exact permits.globals text bound
  · intro other text found held
    dsimp only at held
    rw [Store.scope_addScope] at held
    split at held
    · exact permitted _ _ held
    · exact permits.held _ _ _ held
  · exact permits.fields
  · exact permits.host

/-- A new instance, which has no fields. -/
theorem Permits.addInstance (permits : origins.Permits before) :
    origins.Permits { before with store := before.store.addInstance.2 } := by
  refine ⟨permits.allocated, permits.globals, permits.held, fun other text found held => ?_,
    permits.host⟩
  dsimp only at held
  rw [Store.fieldsOf_addInstance] at held
  split at held
  · cases held
  · exact permits.fields _ _ _ held

/-- A value stored in a field. -/
theorem Permits.setField (permits : origins.Permits before) (reference : InstanceRef)
    (name : String) {value : Value} (permitted : origins.PermitsValue value) :
    origins.Permits { before with store := before.store.setField reference name value } := by
  refine ⟨permits.allocated, permits.globals, permits.held, fun other text found held => ?_,
    permits.host⟩
  dsimp only at held
  rw [Store.fieldsOf_setField] at held
  split at held
  · rw [Bindings.get?_set] at held
    split at held
    · cases held
      exact permitted
    · exact permits.fields _ _ _ held
  · exact permits.fields _ _ _ held

/-! ## Steps -/

variable (origins) in
/-- A step that leaves a permitted machine behind, and what its result is like. -/
def Keeps {α : Type} (step : Run α) (before : Machine) (result : α → Prop) : Prop :=
  match step before with
  | .ok value after => origins.Permits after ∧ result value
  | .error _ after => origins.Permits after

section Steps

variable {α β : Type} {result : α → Prop}

theorem keeps_pure {value : α} (permits : origins.Permits before) (holds : result value) :
    origins.Keeps (pure value) before result :=
  ⟨permits, holds⟩

theorem keeps_throw {halt : Halt} (permits : origins.Permits before) :
    origins.Keeps (throw halt) before result :=
  permits

theorem keeps_fail {fault : RuntimeFault} (permits : origins.Permits before) :
    origins.Keeps (Run.fail fault) before result :=
  permits

theorem Keeps.of_ok {step : Run α} {value : α} (keeps : origins.Keeps step before result)
    (ran : step before = .ok value after) : origins.Permits after ∧ result value := by
  unfold Keeps at keeps
  rwa [ran] at keeps

theorem Keeps.behind {step : Run α} (keeps : origins.Keeps step before result) :
    origins.Permits (step.behind before) := by
  unfold Keeps at keeps
  unfold Run.behind
  cases ran : step before with
  | ok value after =>
      rw [ran] at keeps
      exact keeps.1
  | error halt after =>
      rw [ran] at keeps
      exact keeps

/-- One step after another. The second starts where the first has ended. -/
theorem Keeps.bind {step : Run α} {next : α → Run β} {final : β → Prop}
    (front : origins.Keeps step before result)
    (back : ∀ value middle, step before = .ok value middle → origins.Permits middle →
      result value → origins.Keeps (next value) middle final) :
    origins.Keeps (step >>= next) before final := by
  unfold Keeps at front ⊢
  rw [Run.step_bind]
  cases ran : step before with
  | error halt middle =>
      rw [ran] at front
      exact front
  | ok value middle =>
      rw [ran] at front
      exact back value middle ran front.1 front.2

theorem Keeps.imp {step : Run α} {weaker : α → Prop} (keeps : origins.Keeps step before result)
    (weaken : ∀ value, result value → weaker value) : origins.Keeps step before weaker := by
  unfold Keeps at *
  cases ran : step before with
  | ok value after =>
      rw [ran] at keeps
      exact ⟨keeps.1, weaken value keeps.2⟩
  | error halt after =>
      rw [ran] at keeps
      exact keeps

/-- What a step reads of the machine. -/
theorem keeps_get_bind {next : Machine → Run β} {final : β → Prop}
    (back : origins.Keeps (next before) before final) :
    origins.Keeps (get >>= next) before final :=
  back

theorem keeps_orFail {found : Option α} {fault : RuntimeFault}
    (permits : origins.Permits before) (holds : ∀ value, found = some value → result value) :
    origins.Keeps (Run.orFail found fault) before result := by
  cases found with
  | none => exact keeps_fail permits
  | some value => exact keeps_pure permits (holds value rfl)

/-- A step that follows on something found, on the same machine. -/
theorem keeps_orFail_bind {found : Option α} {fault : RuntimeFault} {next : α → Run β}
    {final : β → Prop} (permits : origins.Permits before)
    (back : ∀ value, found = some value → origins.Keeps (next value) before final) :
    origins.Keeps (Run.orFail found fault >>= next) before final := by
  cases found with
  | none => exact keeps_fail permits
  | some value => exact back value rfl

theorem keeps_within {environment : Environment} {step : Run α}
    (keeps : origins.Keeps step { before with environment := environment } result) :
    origins.Keeps (Run.within environment step) before result := by
  unfold Keeps Run.within at *
  cases ran : step { before with environment := environment } with
  | error halt after =>
      rw [ran] at keeps
      exact keeps.of_same rfl rfl
  | ok value after =>
      rw [ran] at keeps
      exact ⟨keeps.1.of_same rfl rfl, keeps.2⟩

end Steps

/-! ## Counters, the sink and the host -/

theorem keeps_newIdentity (permits : origins.Permits before) :
    origins.Keeps Run.newIdentity before fun _ => True :=
  ⟨permits.of_same rfl rfl, trivial⟩

theorem keeps_print (permits : origins.Permits before) (value : Value) :
    origins.Keeps (Run.print value) before fun _ => True := by
  unfold Keeps Run.print
  generalize before.sink.writeAll (value.pieces ++ ["\n"]) = written
  obtain ⟨_ | reason, sink⟩ := written
  · exact ⟨permits.of_same rfl rfl, trivial⟩
  · exact permits.of_same rfl rfl

theorem keeps_flush (permits : origins.Permits before) :
    origins.Keeps Run.flush before fun _ => True := by
  apply keeps_get_bind
  cases before.sink.flush with
  | none => exact keeps_pure permits trivial
  | some reason => exact keeps_fail permits

theorem keeps_callHost (permits : origins.Permits before) (function : Native)
    (arguments : List Value) (line : Nat) :
    origins.Keeps (Run.callHost function arguments line) before origins.PermitsValue := by
  apply keeps_get_bind
  have counted : origins.Keeps (set { before with hostCalls := before.hostCalls + 1 }) before
      fun _ : PUnit => True := ⟨permits.of_same rfl rfl, trivial⟩
  apply counted.bind
  intro _ middle _ permitsOn _
  cases answer : before.host function before.hostCalls arguments with
  | ok value => exact keeps_pure permitsOn (permits.host _ _ _ _ answer)
  | error message => exact keeps_fail permitsOn

theorem keeps_ofOperator (permits : origins.Permits before) (operator : Token)
    {outcome : Except TypeFault Value} (plain : ∀ value, outcome = .ok value → value.IsPlain) :
    origins.Keeps (Run.ofOperator operator outcome) before origins.PermitsValue := by
  cases outcome with
  | ok value => exact keeps_pure permits (permits_of_isPlain (plain value rfl))
  | error fault => exact keeps_fail permits

/-! ## Names -/

theorem keeps_define (permits : origins.Permits before) {name : String}
    (global : ∀ outer, before.environment = globalScope :: outer → origins.name name)
    {value : Value} (permitted : origins.PermitsValue value) :
    origins.Keeps (Run.define name value) before fun _ => True := by
  unfold Keeps
  cases around : before.environment with
  | nil =>
      have ran : Run.define name value before = .ok () before := by
        cases before
        cases around
        rfl
      rw [ran]
      exact ⟨permits, trivial⟩
  | cons scope outer =>
      rw [Run.define_of_inside name value around]
      refine ⟨permits.define (fun same => ?_) permitted, trivial⟩
      subst same
      exact global outer around

theorem keeps_read (permits : origins.Permits before) (reference : Reference) :
    origins.Keeps (Run.read reference) before origins.PermitsValue := by
  apply keeps_get_bind
  apply keeps_orFail permits
  intro value found
  split at found
  · obtain ⟨scope, _, held⟩ := Option.bind_eq_some_iff.mp found
    exact permits.held scope _ value held
  · obtain ⟨scope, _, held⟩ := List.exists_of_findSome?_eq_some found
    exact permits.held scope _ value held

/-- Assigning binds nothing anew among the globals, if no noted distance leads there. -/
theorem keeps_write (permits : origins.Permits before) {reference : Reference}
    (apart : ∀ distance, before.distances.get? reference.id = some distance →
      before.environment.scopeAt? distance ≠ some globalScope) {value : Value}
    (permitted : origins.PermitsValue value) :
    origins.Keeps (Run.write reference value) before fun _ => True := by
  apply keeps_get_bind
  apply keeps_orFail_bind permits
  intro scope found
  have global (same : scope = globalScope) : origins.name reference.name.lexeme := by
    subst same
    unfold Run.target? at found
    split at found
    · next distance noted => exact absurd found (apart distance noted)
    · rw [binder?_globalEnvironment] at found
      split at found
      · next bound => exact permits.globals _ bound
      · cases found
  exact ⟨permits.define global permitted, trivial⟩

theorem keeps_newScope (permits : origins.Permits before) (outer : Environment)
    {bindings : Bindings Value}
    (permitted : ∀ name value, bindings.get? name = some value → origins.PermitsValue value) :
    origins.Keeps (Run.newScope outer bindings) before fun environment =>
      ∃ scope, environment = scope :: outer ∧ scope ≠ globalScope := by
  refine ⟨permits.addScope permitted, _, rfl, fun same => ?_⟩
  exact Nat.ne_of_gt permits.allocated (congrArg ScopeRef.index same)

/-- A new scope that holds one value. -/
theorem keeps_newScope_single (permits : origins.Permits before) (outer : Environment)
    (name : String) {value : Value} (permitted : origins.PermitsValue value) :
    origins.Keeps (Run.newScope outer (Bindings.empty.set name value)) before fun environment =>
      ∃ scope, environment = scope :: outer ∧ scope ≠ globalScope := by
  apply keeps_newScope permits
  intro text found held
  rw [Bindings.get?_set] at held
  split at held
  · cases held
    exact permitted
  · cases held

/-! ## Functions and classes -/

theorem keeps_declare (permits : origins.Permits before) {declaration : FunctionDecl}
    {isInitializer : Bool} {result : Closure → Prop}
    (permitted : ∀ identity,
      result ⟨identity, declaration, before.environment, isInitializer⟩) :
    origins.Keeps (Closure.declare declaration isInitializer) before result := by
  apply (keeps_newIdentity permits).bind
  intro identity middle ran permitsOn _
  have same := (Run.restores_newIdentity.of_ok ran).environment
  exact keeps_get_bind (keeps_pure permitsOn (same ▸ permitted identity))

theorem keeps_bindMethod (permits : origins.Permits before) {method : Closure} {object : Instance}
    (permitted : origins.PermitsMethod method) (receiver : origins.PermitsClass object.cls) :
    origins.Keeps (method.bind object) before origins.function := by
  have held : origins.PermitsValue (.object object) := receiver
  apply (keeps_newScope_single permits _ "this" held).bind
  rintro environment middle - permitsInside ⟨scope, rfl, -⟩
  apply (keeps_newIdentity permitsInside).bind
  intro identity last _ permitsOn _
  exact keeps_pure permitsOn (permitted identity scope)

theorem keeps_newInstance (permits : origins.Permits before) {cls : Class}
    (permitted : origins.PermitsClass cls) :
    origins.Keeps (Run.newInstance cls) before fun object => origins.PermitsClass object.cls :=
  ⟨permits.addInstance, permitted⟩

theorem keeps_property (permits : origins.Permits before) {object : Instance}
    (permitted : origins.PermitsClass object.cls) (name : Token) :
    origins.Keeps (object.property name) before origins.PermitsValue := by
  apply keeps_get_bind
  cases held : (before.store.fieldsOf object.reference).get? name.lexeme with
  | some value => exact keeps_pure permits (permits.fields _ _ _ held)
  | none =>
      apply keeps_orFail_bind permits
      intro method found
      apply (keeps_bindMethod permits (permitted.method found) permitted).bind
      exact fun bound middle _ permitsOn boundPermitted => keeps_pure permitsOn boundPermitted

theorem keeps_superMethod (permits : origins.Permits before) (reference : Reference)
    (method : Token) :
    origins.Keeps (superMethod reference method) before origins.PermitsValue := by
  have looked {distance : Nat} {name : String} {value : Value}
      (found : before.environment.lookupAt? before.store distance name = some value) :
      origins.PermitsValue value := by
    obtain ⟨scope, _, held⟩ := Option.bind_eq_some_iff.mp found
    exact permits.held scope name value held
  apply keeps_get_bind
  apply keeps_orFail_bind permits
  intro distance _
  split
  · next superclass heldClass =>
      cases distance with
      | zero => exact keeps_fail permits
      | succ outward =>
          dsimp only
          split
          · next object heldObject =>
              apply keeps_orFail_bind permits
              intro found here
              have permittedClass : origins.PermitsClass superclass := looked heldClass
              have receiver : origins.PermitsClass object.cls := looked heldObject
              apply (keeps_bindMethod permits (permittedClass.method here) receiver).bind
              exact fun bound middle _ permitsOn boundPermitted =>
                keeps_pure permitsOn boundPermitted
          · exact keeps_fail permits
  · exact keeps_fail permits

theorem keeps_superclassOf (permits : origins.Permits before) (name : Token) (superclass : Expr)
    {value : Value} (permitted : origins.PermitsValue value) :
    origins.Keeps (superclassOf name superclass value) before origins.PermitsClass := by
  cases value with
  | cls found => exact keeps_pure permits permitted
  | _ => exact keeps_fail permits

theorem keeps_declareMethods (permits : origins.Permits before) {methods : List FunctionDecl}
    (permitted : ∀ method ∈ methods, ∀ identity isInitializer,
      origins.PermitsMethod ⟨identity, method, before.environment, isInitializer⟩)
    {members : Bindings Closure}
    (earlier : ∀ name method, members.get? name = some method → origins.PermitsMethod method) :
    origins.Keeps (declareMethods methods members) before fun members =>
      ∀ name method, members.get? name = some method → origins.PermitsMethod method := by
  induction methods generalizing before members with
  | nil => exact keeps_pure permits earlier
  | cons declaration rest ih =>
      apply (keeps_declare permits fun identity =>
        permitted declaration List.mem_cons_self identity _).bind
      intro method middle ran permitsOn methodPermitted
      have same := ((restores_declare _ _).of_ok ran).environment
      apply ih permitsOn
      · intro other inside
        rw [same]
        exact permitted other (List.mem_cons_of_mem _ inside)
      intro name found held
      rw [Bindings.get?_set] at held
      split at held
      · cases held
        exact methodPermitted
      · exact earlier name found held

theorem keeps_methodEnvironment (permits : origins.Permits before) (outer : Environment)
    {superclass : Option Class}
    (inherited : ∀ found, superclass = some found → origins.PermitsClass found) :
    origins.Keeps (methodEnvironment outer superclass) before fun environment =>
      ∃ opened, environment = opened ++ outer ∧ opened.length = superclass.toList.length := by
  cases superclass with
  | none => exact keeps_pure permits ⟨[], rfl, rfl⟩
  | some found =>
      have held : origins.PermitsValue (.cls found) := inherited found rfl
      apply (keeps_newScope_single permits outer "super" held).imp
      rintro _ ⟨scope, rfl, -⟩
      exact ⟨[scope], rfl, rfl⟩

/-- Declaring a class binds its name, in the same scope before and after its methods have
been declared. -/
theorem keeps_declareClass (permits : origins.Permits before) {name : Token}
    (global : ∀ outer, before.environment = globalScope :: outer → origins.name name.lexeme)
    {superclass : Option Class}
    (inherited : ∀ found, superclass = some found → origins.PermitsClass found)
    {methods : List FunctionDecl}
    (permitted : ∀ method ∈ methods, ∀ identity isInitializer opened,
      opened.length = superclass.toList.length →
        origins.PermitsMethod ⟨identity, method, opened ++ before.environment, isInitializer⟩) :
    origins.Keeps (declareClass name superclass methods) before fun _ => True := by
  have none : origins.PermitsValue .nil := trivial
  apply (keeps_define permits global none).bind
  intro _ named ran permitsNamed _
  have sameNamed := ((Run.restores_define name.lexeme .nil).of_ok ran).environment
  apply keeps_get_bind
  apply (keeps_methodEnvironment permitsNamed _ inherited).bind
  rintro inner inside ranInside permitsInside ⟨opened, around, length⟩
  have sameInside :=
    ((restores_methodEnvironment named.environment superclass).of_ok ranInside).environment
  have permitsThere : origins.Permits { inside with environment := inner } :=
    permitsInside.of_same rfl rfl
  have fresh (text : String) (method : Closure)
      (held : (Bindings.empty : Bindings Closure).get? text = some method) :
      origins.PermitsMethod method := nomatch held
  have there (method : FunctionDecl) (among : method ∈ methods) (identity : Nat)
      (isInitializer : Bool) :
      origins.PermitsMethod ⟨identity, method, inner, isInitializer⟩ := by
    rw [around, sameNamed]
    exact permitted method among identity isInitializer opened length
  have declared : origins.Keeps (Run.within inner (declareMethods methods .empty)) inside
      fun members => ∀ name method, members.get? name = some method →
        origins.PermitsMethod method :=
    keeps_within (keeps_declareMethods permitsThere there fresh)
  apply declared.bind
  intro members defined ranDefined permitsDefined membersPermitted
  have sameDefined := ((Run.restores_within inner
    (restores_declareMethods methods .empty)).of_ok ranDefined).environment
  apply (keeps_newIdentity permitsDefined).bind
  intro identity last ranLast permitsLast _
  have sameLast := (Run.restores_newIdentity.of_ok ranLast).environment
  have cls : origins.PermitsValue
      (.cls (.extend ⟨identity, name.lexeme, members⟩ superclass)) := by
    intro layer among text method held
    cases superclass with
    | none =>
        obtain rfl := List.mem_singleton.mp among
        exact membersPermitted text method held
    | some found =>
        rcases List.mem_cons.mp among with rfl | outer
        · exact membersPermitted text method held
        · exact inherited found rfl layer outer text method held
  apply keeps_define permitsLast _ cls
  intro outer around
  apply global outer
  rw [← sameNamed, ← sameInside, ← sameDefined, ← sameLast, around]

end Origins

end Lox
