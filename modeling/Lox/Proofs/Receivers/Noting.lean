import Lox.Proofs.Receivers.Notes

/-!
# Single steps keep everything noted

What a step binds is noted before it is bound, a function gets a fresh identity
together with its receiver, and a method with its superclass.
-/

namespace Lox

variable {before : Watch}

/-! ## Changes of the store -/

/-- A noted value that may be bound to a name. What only classes bind is an object
or a class. -/
structure Watch.Bindable (watch : Watch) (name : String) (value : Value) : Prop where
  noted : value.Noted watch
  object : name = "this" → ∃ object, value = .object object
  superclass : name = "super" → ∃ superclass, value = .cls superclass

theorem Watch.Bindable.of_ordinary {name : String} {value : Value} (ordinary : IsOrdinaryName name)
    (noted : value.Noted before) : before.Bindable name value :=
  ⟨noted, fun same => absurd same ordinary.1, fun same => absurd same ordinary.2⟩

theorem Watch.Sound.bindable (sound : before.Sound) {scope : ScopeRef} {name : String}
    {value : Value} (held : (before.machine.store.scope scope).get? name = some value) :
    before.Bindable name value := by
  constructor
  · exact sound.stored scope name value held
  · rintro rfl
    exact sound.objects scope value held
  · rintro rfl
    exact sound.classes scope value held

/-- A store that has grown and binds nothing but noted values. -/
theorem Watch.Sound.change (sound : before.Sound) {store : Store}
    (growth : before.machine.store.Extends store)
    (bound : ∀ scope name value, (store.scope scope).get? name = some value →
      before.Bindable name value)
    (fielded : ∀ reference name value, (store.fieldsOf reference).get? name = some value →
      value.Noted before) :
    before.Grows { before with machine := { before.machine with store := store } } := by
  have extended : before.Extends
      { before with machine := { before.machine with store := store } } :=
    ⟨growth, Nat.le_refl _, fun _ _ => rfl, fun _ _ => rfl⟩
  exact ⟨extended, { sound with
    stored := fun scope name value held => (bound scope name value held).noted.grow extended
    fielded := fun reference name value held => (fielded reference name value held).grow extended
    objects := fun scope value held => (bound scope _ value held).object rfl
    classes := fun scope value held => (bound scope _ value held).superclass rfl }, rfl⟩

theorem Watch.Sound.define (sound : before.Sound) (scope : ScopeRef) {name : String}
    (ordinary : IsOrdinaryName name) {value : Value} (noted : value.Noted before) :
    before.Grows { before with machine :=
      { before.machine with store := before.machine.store.define scope name value } } := by
  apply sound.change (.define _ scope ordinary value)
  · intro other text found held
    rw [Store.scope_define] at held
    split at held
    · rw [Bindings.get?_set] at held
      split at held
      · next same =>
          cases held
          exact same ▸ .of_ordinary ordinary noted
      · exact sound.bindable held
    · exact sound.bindable held
  · exact sound.fielded

/-! ## Changes of the notes -/

/-- A fresh identity gets a receiver. -/
theorem Watch.Sound.attach (sound : before.Sound) (receiver : Option Receiver) :
    before.Grows { before with
      machine := { before.machine with nextIdentity := before.machine.nextIdentity + 1 }
      receivers := Function.update before.receivers before.machine.nextIdentity receiver } := by
  have growth : before.Extends { before with
      machine := { before.machine with nextIdentity := before.machine.nextIdentity + 1 }
      receivers := Function.update before.receivers before.machine.nextIdentity receiver } := by
    refine ⟨.refl _, Nat.le_succ _, fun identity below => ?_, fun _ _ => rfl⟩
    exact Function.update_of_ne (Nat.ne_of_lt below) _ _
  exact ⟨growth, { sound with
    stored := fun scope name value held => (sound.stored scope name value held).grow growth
    fielded := fun reference name value held =>
      (sound.fielded reference name value held).grow growth }, rfl⟩

/-- A fresh identity gets a superclass. -/
theorem Watch.Sound.inherit (sound : before.Sound) (superclass : Option Class) :
    before.Grows { before with
      machine := { before.machine with nextIdentity := before.machine.nextIdentity + 1 }
      superclasses :=
        Function.update before.superclasses before.machine.nextIdentity superclass } := by
  have growth : before.Extends { before with
      machine := { before.machine with nextIdentity := before.machine.nextIdentity + 1 }
      superclasses :=
        Function.update before.superclasses before.machine.nextIdentity superclass } := by
    refine ⟨.refl _, Nat.le_succ _, fun _ _ => rfl, fun identity below => ?_⟩
    exact Function.update_of_ne (Nat.ne_of_lt below) _ _
  exact ⟨growth, { sound with
    stored := fun scope name value held => (sound.stored scope name value held).grow growth
    fielded := fun reference name value held =>
      (sound.fielded reference name value held).grow growth }, rfl⟩

namespace Watching

variable {α : Type} {result : Watch → α → Prop}

/-! ## Steps of the machine -/

theorem keeps_of_ok {step : Watching α} {value : α} {after : Watch}
    (ran : step before = .ok value after) (grows : before.Grows after)
    (holds : result after value) : step.Keeps before result := by
  unfold Keeps
  rw [ran]
  exact ⟨grows, holds⟩

/-- Steps of the machine one after another. -/
theorem keeps_lift_bind {β : Type} {step : Run β} {next : β → Run α}
    {middle : Watch → β → Prop} (front : (lift step).Keeps before middle)
    (back : ∀ between value, before.Grows between → middle between value →
      (lift (next value)).Keeps between result) :
    (lift (step >>= next)).Keeps before result := by
  have split : lift (step >>= next) before =
      (lift step >>= fun value => lift (next value)) before := by
    change lift (EStateM.bind step next) before =
      EStateM.bind (lift step) (fun value => lift (next value)) before
    unfold lift EStateM.bind
    dsimp only
    cases step before.machine with
    | ok value after => rfl
    | error halt after => rfl
  have both := front.bind fun between value _ grows holds => back between value grows holds
  unfold Keeps at both ⊢
  rwa [split]

/-- A look at the machine. -/
theorem keeps_lift_get {next : Machine → Run α}
    (back : (lift (next before.machine)).Keeps before result) :
    (lift (get >>= next)).Keeps before result := back

theorem keeps_fail {fault : RuntimeFault} (sound : before.Sound) :
    (lift (Run.fail fault : Run α)).Keeps before result :=
  sound.grows

theorem keeps_orFail {found : Option α} {fault : RuntimeFault} (sound : before.Sound)
    (holds : ∀ value, found = some value → result before value) :
    (lift (Run.orFail found fault)).Keeps before result := by
  cases found with
  | none => exact keeps_fail sound
  | some value => exact keeps_pure sound (holds value rfl)

theorem keeps_ofOperator (sound : before.Sound) (operator : Token)
    {outcome : Except TypeFault Value} (plain : ∀ value, outcome = .ok value → value.IsPlain) :
    (lift (Run.ofOperator operator outcome)).Keeps before fun after value =>
      value.Noted after := by
  cases outcome with
  | ok value => exact keeps_pure sound ((plain value rfl).noted _)
  | error fault => exact keeps_fail sound

/-- Every value that a name stands for is noted. -/
theorem keeps_read (sound : before.Sound) (reference : Reference) :
    (lift (Run.read reference)).Keeps before fun after value => value.Noted after := by
  apply keeps_lift_get
  apply keeps_orFail sound
  intro value found
  split at found
  · obtain ⟨scope, _, held⟩ := Option.bind_eq_some_iff.mp found
    exact sound.stored scope _ value held
  · obtain ⟨scope, _, held⟩ := List.exists_of_findSome?_eq_some found
    exact sound.stored scope _ value held

theorem keeps_write (sound : before.Sound) {reference : Reference}
    (ordinary : reference.name.IsOrdinary) {value : Value} (noted : value.Noted before) :
    (lift (Run.write reference value)).Keeps before fun _ _ => True := by
  apply keeps_lift_get
  have target : (lift (Run.orFail (Run.target? reference before.machine)
      (.variableAt reference.name))).Keeps before fun _ _ => True :=
    keeps_orFail sound fun _ _ => trivial
  apply keeps_lift_bind target
  intro after scope grows _
  exact ⟨grows.sound.define scope ordinary (noted.grow grows.toExtends), trivial⟩

theorem keeps_define (sound : before.Sound) {name : String} (ordinary : IsOrdinaryName name)
    {value : Value} (noted : value.Noted before) :
    (lift (Run.define name value)).Keeps before fun _ _ => True := by
  obtain ⟨⟨store, environment, distances, nextIdentity, hostCalls, sink, host⟩, receivers,
    superclasses, sightings⟩ := before
  cases environment with
  | nil => exact ⟨sound.grows, trivial⟩
  | cons scope outer => exact ⟨sound.define scope ordinary noted, trivial⟩

/-- A new scope holds what it is given. -/
theorem keeps_newScope (sound : before.Sound) (outer : Environment) {bindings : Bindings Value}
    (bound : ∀ name value, bindings.get? name = some value → before.Bindable name value) :
    (lift (Run.newScope outer bindings)).Keeps before fun after environment =>
      ∃ scope, environment = scope :: outer ∧ scope.index < after.machine.store.scopes.size ∧
        after.machine.store.scope scope = bindings := by
  refine ⟨?_, _, rfl, ?_, ?_⟩
  · apply sound.change (.addScope _ bindings)
    · intro other name value held
      rw [Store.scope_addScope] at held
      split at held
      · exact bound name value held
      · exact sound.bindable held
    · exact sound.fielded
  · simp
  · exact (Store.scope_addScope ..).trans (if_pos rfl)

theorem keeps_newInstance (sound : before.Sound) (cls : Class) :
    (lift (Run.newInstance cls)).Keeps before fun _ object => object.cls = cls := by
  have growth : before.machine.store.Extends before.machine.store.addInstance.2 := .of_scopes rfl
  refine ⟨sound.change growth ?_ ?_, rfl⟩
  · exact fun scope name value held => sound.bindable held
  · intro other name value held
    change (before.machine.store.addInstance.2.fieldsOf other).get? name = some value at held
    rw [Store.fieldsOf_addInstance] at held
    split at held
    · cases held
    · exact sound.fielded other name value held

theorem keeps_setProperty (sound : before.Sound) (object : Instance) (name : Token)
    {value : Value} (noted : value.Noted before) :
    (lift (object.setProperty name value)).Keeps before fun _ _ => True := by
  have growth : before.machine.store.Extends
      (before.machine.store.setField object.reference name.lexeme value) := .of_scopes rfl
  refine ⟨sound.change growth ?_ ?_, trivial⟩
  · exact fun scope name value held => sound.bindable held
  · intro other text found held
    rw [Store.fieldsOf_setField] at held
    split at held
    · rw [Bindings.get?_set] at held
      split at held
      · cases held
        exact noted
      · exact sound.fielded _ _ _ held
    · exact sound.fielded _ _ _ held

theorem keeps_newIdentity (sound : before.Sound) :
    (lift Run.newIdentity).Keeps before fun _ _ => True :=
  ⟨⟨.of_store rfl (Nat.le_succ _), sound.of_store rfl (Nat.le_succ _) rfl, rfl⟩, trivial⟩

theorem keeps_print (sound : before.Sound) (value : Value) :
    (lift (Run.print value)).Keeps before fun _ _ => True := by
  unfold Keeps lift Run.print
  cases before.machine.sink.writeAll (value.pieces ++ ["\n"]) with
  | mk refusal sink =>
      have grows : before.Grows { before with machine := { before.machine with sink := sink } } :=
        ⟨.of_store rfl (Nat.le_refl _), sound.of_store rfl (Nat.le_refl _) rfl, rfl⟩
      cases refusal with
      | none => exact ⟨grows, trivial⟩
      | some reason => exact grows

theorem keeps_flush (sound : before.Sound) : (lift Run.flush).Keeps before fun _ _ => True := by
  apply keeps_lift_get
  split
  · exact keeps_pure sound trivial
  · exact keeps_fail sound

theorem keeps_callHost (sound : before.Sound) (function : Native) (arguments : List Value)
    (line : Nat) :
    (lift (Run.callHost function arguments line)).Keeps before fun after value =>
      value.Noted after := by
  apply keeps_lift_get
  have counted : (lift (set { before.machine with hostCalls := before.machine.hostCalls + 1 } :
      Run PUnit)).Keeps before fun _ _ => True :=
    ⟨⟨.of_store rfl (Nat.le_refl _), sound.of_store rfl (Nat.le_refl _) rfl, rfl⟩, trivial⟩
  apply keeps_lift_bind counted
  intro after _ grows _
  cases answer : before.machine.host function before.machine.hostCalls arguments with
  | ok value => exact keeps_pure grows.sound ((sound.host _ _ _ _ answer).noted _)
  | error message => exact keeps_fail grows.sound

/-! ## Notes -/

theorem keeps_see (sound : before.Sound) {receiver : Option Receiver} {sight : Sight}
    (right : Sighting.Right ⟨sight, receiver, before.machine⟩) :
    (see receiver sight).Keeps before fun after _ => after.machine = before.machine := by
  have growth : before.Extends { before with
      sightings := before.sightings ++ [⟨sight, receiver, before.machine⟩] } :=
    ⟨.refl _, Nat.le_refl _, fun _ _ => rfl, fun _ _ => rfl⟩
  refine ⟨⟨growth, ⟨?_, ?_, sound.objects, sound.classes, sound.host, ?_⟩, rfl⟩, rfl⟩
  · exact fun scope name value held => (sound.stored scope name value held).grow growth
  · exact fun reference name value held => (sound.fielded reference name value held).grow growth
  · intro sighting inside
    rcases List.mem_append.mp inside with earlier | here
    · exact sound.right sighting earlier
    · exact List.mem_singleton.mp here ▸ right

/-! ## Functions and classes -/

/-- A function gets the receiver of the code that declares it. -/
theorem keeps_declare (sound : before.Sound) {receiver : Option Receiver}
    (around : before.Around receiver) {declaration : FunctionDecl}
    (ordinary : ∀ parameter ∈ declaration.parameters, parameter.IsOrdinary) :
    (declare receiver declaration false).Keeps before fun after closure => closure.Noted after := by
  refine ⟨sound.attach receiver, ⟨Nat.lt_succ_self _, around.allocated, ordinary⟩, ?_, nofun⟩
  exact (Function.update_self ..).trans around.holds.symm

/-- A method gets the receiver that it is bound to. -/
theorem keeps_bind (sound : before.Sound) {method : Closure} {object : Instance}
    (noted : method.NotedMethod before) (receiver : object.cls.Noted before) :
    (bind method object).Keeps before fun after bound =>
      bound.declaration = method.declaration ∧ bound.Noted after := by
  have held (name : String) (value : Value)
      (found : (Bindings.empty.set "this" (Value.object object)).get? name = some value) :
      before.Bindable name value := by
    rw [Bindings.get?_set] at found
    split at found
    · next same =>
        cases found
        exact ⟨receiver, fun _ => ⟨object, rfl⟩, fun other => absurd (same.trans other) (by decide)⟩
    · cases found
  obtain ⟨opened, scope, shape, allocated, contents⟩ := keeps_newScope sound method.environment held
  cases shape
  have here := congrArg (Bindings.get? · "this") contents
  dsimp only at here
  rw [Bindings.get?_set_self] at here
  refine ⟨opened.trans (opened.sound.attach _), rfl,
    ⟨Nat.lt_succ_self _, List.forall_mem_cons.mpr ⟨allocated, ?_⟩, noted.ordinary⟩, ?_, ?_⟩
  · exact noted.allocated.grow opened.store
  · refine (Function.update_self ..).trans (Eq.trans ?_ (Environment.receiver?_of_object here).symm)
    rw [Environment.superclass?_grow noted.allocated opened.store, ← noted.superclass]
  · exact fun _ => ⟨_, _, object, rfl, here⟩

theorem result_of_initializer {closure : Closure} {machine : Machine} {scope : ScopeRef}
    {outer : Environment} {object : Instance} (flow : Flow)
    (initializes : closure.isInitializer = true) (shape : closure.environment = scope :: outer)
    (held : (machine.store.scope scope).get? "this" = some (.object object)) :
    closure.result flow machine = .ok (.object object) machine := by
  have found : closure.environment.lookupAt? machine.store 0 "this" = some (.object object) := by
    rw [shape]
    exact held
  unfold Closure.result
  rw [if_pos initializes]
  change Run.orFail (closure.environment.lookupAt? machine.store 0 "this") _ machine = _
  rw [found]
  rfl

/-- An initializer yields the object that it is bound to. -/
theorem keeps_result (sound : before.Sound) {receiver : Option Receiver} {closure : Closure}
    (noted : closure.Noted before)
    (holds : closure.environment.receiver? before.machine.store = receiver) {flow : Flow}
    (flowNoted : flow.Noted before) :
    (Watching.result receiver closure flow).Keeps before fun after value => value.Noted after := by
  unfold Watching.result
  split
  · next initializes =>
      obtain ⟨scope, outer, object, shape, held⟩ := noted.bound initializes
      rw [shape, Environment.receiver?_of_object held] at holds
      have yields := result_of_initializer flow initializes shape held
      apply (keeps_see sound ⟨_, holds.symm, yields⟩).bind
      intro middle _ _ grows same
      have objectNoted : (Value.object object).Noted before := sound.stored scope _ _ held
      have ran : lift (closure.result flow) middle = .ok (.object object) middle := by
        unfold lift
        rw [same, yields, ← same]
      exact keeps_of_ok ran grows.sound.grows (objectNoted.grow grows.toExtends)
  · next plain =>
      unfold Closure.result
      rw [if_neg plain]
      cases flow with
      | normal => exact keeps_pure sound trivial
      | returned value => exact keeps_pure sound flowNoted

theorem keeps_property (sound : before.Sound) {object : Instance}
    (noted : object.cls.Noted before) (name : Token) :
    (property object name).Keeps before fun after value => value.Noted after := by
  apply keeps_get
  cases held : (before.machine.store.fieldsOf object.reference).get? name.lexeme with
  | some value => exact keeps_pure sound (sound.fielded _ _ _ held)
  | none =>
      have found : (lift (Run.orFail (object.cls.method? name.lexeme) (.propertyAt name))).Keeps
          before fun after method => object.cls.Noted after ∧ method.NotedMethod after :=
        keeps_orFail sound fun method found => ⟨noted, noted.method found⟩
      apply found.bind
      intro middle method _ grows both
      apply (keeps_bind grows.sound both.2 both.1).bind
      exact fun after bound _ growsOn boundNoted => keeps_pure growsOn.sound boundNoted.2

theorem keeps_superMethod (sound : before.Sound) (reference : Reference) (method : Token) :
    (superMethod reference method).Keeps before fun after value => value.Noted after := by
  have noted {environment : Environment} {distance : Nat} {name : String} {value : Value}
      (found : environment.lookupAt? before.machine.store distance name = some value) :
      value.Noted before := by
    obtain ⟨scope, _, held⟩ := Option.bind_eq_some_iff.mp found
    exact sound.stored scope name value held
  apply keeps_get
  have looked : (lift (Run.orFail (before.machine.distances.get? reference.id)
      (.variableAt reference.name))).Keeps before fun after _ => before = after :=
    keeps_orFail sound fun _ _ => rfl
  apply looked.bind
  rintro _ distance _ _ rfl
  split
  · next superclass heldClass =>
      have classNoted : superclass.Noted before := noted heldClass
      dsimp only
      split
      · next object heldObject =>
          have objectNoted : object.cls.Noted before := by
            cases distance with
            | zero => cases heldObject
            | succ distance => exact noted heldObject
          have found : (lift (Run.orFail (superclass.method? method.lexeme)
              (.propertyAt method))).Keeps before fun after found =>
                object.cls.Noted after ∧ found.NotedMethod after :=
            keeps_orFail sound fun found here => ⟨objectNoted, classNoted.method here⟩
          apply found.bind
          intro middle found _ grows both
          apply (keeps_bind grows.sound both.2 both.1).bind
          exact fun after bound _ growsOn boundNoted => keeps_pure growsOn.sound boundNoted.2
      · exact keeps_fail sound
  · exact keeps_fail sound

/-- A method gets the superclass of the class that it is declared in. -/
theorem keeps_declareMethods (sound : before.Sound) {superclass : Option Class}
    (allocated : before.machine.environment.Allocated before.machine.store)
    (holds : before.machine.environment.superclass? before.machine.store = superclass)
    {methods : List FunctionDecl} (placed : FunctionDecl.ListPlaced methods)
    {members : Bindings Closure}
    (noted : ∀ name method, members.get? name = some method → method.NotedMethod before) :
    (declareMethods superclass methods members).Keeps before fun after members =>
      ∀ name method, members.get? name = some method → method.NotedMethod after := by
  induction methods generalizing before members with
  | nil => exact keeps_pure sound noted
  | cons declaration rest ih =>
      have declared : (declareMethod superclass declaration).Keeps before fun after method =>
          method.NotedMethod after := by
        refine ⟨sound.inherit superclass, ⟨Nat.lt_succ_self _, allocated, placed.1.parameters⟩, ?_⟩
        exact (Function.update_self ..).trans holds.symm
      apply declared.bind
      intro middle method _ grows methodNoted
      apply ih grows.sound _ _ placed.2
      · intro name other held
        rw [Bindings.get?_set] at held
        split at held
        · cases held
          exact methodNoted
        · exact (noted name other held).grow grows.toExtends
      · rw [grows.environment]
        exact allocated.grow grows.store
      · rw [grows.environment, Environment.superclass?_grow allocated grows.store]
        exact holds

/-- The environment in which the methods of a class are declared holds its
superclass. -/
theorem keeps_methodEnvironment (sound : before.Sound) {receiver : Option Receiver}
    (around : before.Around receiver) {superclass : Option Class}
    (noted : ∀ cls, superclass = some cls → cls.Noted before) :
    (lift (methodEnvironment before.machine.environment superclass)).Keeps before
      fun after environment => environment.Allocated after.machine.store ∧
        environment.superclass? after.machine.store = superclass := by
  cases superclass with
  | none => exact keeps_pure sound ⟨around.allocated, around.closed⟩
  | some cls =>
      have held (name : String) (value : Value)
          (found : (Bindings.empty.set "super" (Value.cls cls)).get? name = some value) :
          before.Bindable name value := by
        rw [Bindings.get?_set] at found
        split at found
        · next same =>
            cases found
            exact ⟨noted cls rfl, fun other => absurd (same.trans other) (by decide),
              fun _ => ⟨cls, rfl⟩⟩
        · cases found
      apply (keeps_newScope sound before.machine.environment held).imp
      rintro after _ grows ⟨scope, rfl, allocated, contents⟩
      have here := congrArg (Bindings.get? · "super") contents
      rw [Bindings.get?_set_self] at here
      constructor
      · exact List.forall_mem_cons.mpr ⟨allocated, around.allocated.grow grows.store⟩
      · exact Environment.superclass?_of_cls here

theorem keeps_declareClass (sound : before.Sound) {receiver : Option Receiver}
    (around : before.Around receiver) {name : Token} (ordinary : name.IsOrdinary)
    {superclass : Option Class} (noted : ∀ cls, superclass = some cls → cls.Noted before)
    {methods : List FunctionDecl} (placed : FunctionDecl.ListPlaced methods) :
    (declareClass name superclass methods).Keeps before fun _ _ => True := by
  have unset : Value.nil.Noted before := trivial
  apply (keeps_define sound ordinary unset).bind
  intro named _ _ grows _
  have notedNow (cls : Class) (given : superclass = some cls) : cls.Noted named :=
    (noted cls given).grow grows.toExtends
  apply keeps_get
  apply (keeps_methodEnvironment grows.sound (around.grow grows) notedNow).bind
  rintro opened inner _ growsOn ⟨allocated, holds⟩
  have inside : Watch.Sound
      { opened with machine := { opened.machine with environment := inner } } :=
    growsOn.sound.of_store rfl (Nat.le_refl _) rfl
  have none (name : String) (method : Closure) (held : Bindings.empty.get? name = some method) :
      method.NotedMethod
        { opened with machine := { opened.machine with environment := inner } } := by
    cases held
  have members := keeps_declareMethods inside allocated holds placed none
  apply (keeps_within members fun growth methodsNoted name method held =>
    (methodsNoted name method held).grow growth).bind
  intro declared members _ growsInside membersNoted
  apply (keeps_newIdentity growsInside.sound).bind
  intro last identity _ growsLast _
  have growsAll := (growsOn.trans growsInside).trans growsLast
  apply keeps_define growsLast.sound ordinary
  apply Class.noted_extend
  · exact fun name method held => (membersNoted name method held).grow growsLast.toExtends
  · exact fun cls given => (notedNow cls given).grow growsAll.toExtends

end Watching

end Lox
