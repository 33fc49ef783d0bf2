import Lox.Proofs.Evaluation.Preservation
import Lox.Proofs.Reach.Staying

/-!
# Evaluation stays inside

No expression, statement or call leaves a territory that its machine, and what
it is given, are inside of.
-/

namespace Lox

variable {territory grown : Territory} {before middle after : Machine}

/-- What a result refers to is inside once the store has grown, too. -/
theorem Territory.Holds.onward {parts : Part → Prop} (holds : territory.Holds before.store parts)
    (onward : before.Onward territory grown after) : grown.Holds after.store parts :=
  holds.grow onward.grows

/-- What the end of a statement refers to. -/
def Flow.Has (flow : Flow) (part : Part) : Prop :=
  ∃ value ∈ flow.values, value.Has part

/-- What several values refer to. -/
def Value.AnyHas (values : List Value) (part : Part) : Prop :=
  ∃ value ∈ values, value.Has part

theorem Territory.holds_nil : territory.Holds before.store Value.nil.Has :=
  holds_of_isPlain trivial

theorem Territory.Holds.function {closure : Closure}
    (holds : territory.Holds before.store closure.Has) :
    territory.Holds before.store (Value.function closure).Has :=
  holds

theorem Territory.holds_normal : territory.Holds before.store Flow.normal.Has := by
  rintro part ⟨value, member, -⟩
  nomatch member

theorem Territory.Holds.returned {value : Value} (holds : territory.Holds before.store value.Has) :
    territory.Holds before.store (Flow.returned value).Has := by
  rintro part ⟨other, member, has⟩
  obtain rfl := List.mem_singleton.mp member
  exact holds part has

theorem Territory.Holds.of_returned {value : Value}
    (holds : territory.Holds before.store (Flow.returned value).Has) :
    territory.Holds before.store value.Has :=
  fun part has => holds part ⟨value, List.mem_singleton_self _, has⟩

open Run

namespace Run

/-! ## Lists of expressions and statements -/

/-- Whatever is evaluated on a machine inside of a territory stays inside. -/
def AlwaysStays {α β : Type} (parts : β → Part → Prop) (step : α → Run β) : Prop :=
  ∀ {territory : Territory} {before : Machine}, before.Confined territory →
    ∀ subject, (step subject).Stays territory before (Territory.Yields parts)

theorem stays_goesOn {evaluate : Expr → Run Value} (stays : AlwaysStays Value.Has evaluate)
    (confined : before.Confined territory) (condition : Option Expr) :
    (goesOn evaluate condition).Stays territory before fun _ _ _ => True := by
  cases condition with
  | none => exact stays_pure confined trivial
  | some condition =>
      exact (stays confined condition).bind fun _ _ _ onward _ =>
        stays_pure onward.confined trivial

theorem stays_collect {evaluate : Expr → Run Value} (stays : AlwaysStays Value.Has evaluate)
    (confined : before.Confined territory) (values : List Expr) :
    (collect evaluate values).Stays territory before (Territory.Yields Value.AnyHas) := by
  induction values generalizing territory before with
  | nil =>
      apply stays_pure confined
      rintro part ⟨value, member, -⟩
      nomatch member
  | cons first rest ih =>
      apply (stays confined first).bind
      intro _ _ value onward one
      apply (ih onward.confined).bind
      intro _ _ values farther others
      apply stays_pure farther.confined
      rintro part ⟨other, member, has⟩
      obtain rfl | member := List.mem_cons.mp member
      · exact (one.onward farther) part has
      · exact others part ⟨other, member, has⟩

theorem stays_sequence {execute : Stmt → Run Flow} (stays : AlwaysStays Flow.Has execute)
    (confined : before.Confined territory) (body : List Stmt) :
    (Flow.sequence execute body).Stays territory before (Territory.Yields Flow.Has) := by
  induction body generalizing territory before with
  | nil => exact stays_pure confined Territory.holds_normal
  | cons first rest ih =>
      apply (stays confined first).bind
      intro _ _ flow onward holds
      cases flow with
      | normal => exact ih onward.confined
      | returned value => exact stays_pure onward.confined holds

end Run

/-! ## Functions and classes -/

/-- What a declared function holds is the environment of its declaration. -/
theorem stays_declare (confined : before.Confined territory) (declaration : FunctionDecl)
    (isInitializer : Bool) :
    (Closure.declare declaration isInitializer).Stays territory before
      (Territory.Yields Closure.Has) := by
  apply (stays_newIdentity confined).bind
  intro grown middle _ onward _
  apply stays_look
  apply stays_pure onward.confined
  rintro part rfl
  exact onward.confined.around

theorem stays_bindMethod (confined : before.Confined territory) {method : Closure}
    {object : Instance} (methodHolds : territory.Holds before.store method.Has)
    (objectHolds : territory.Holds before.store (Value.object object).Has) :
    (method.bind object).Stays territory before (Territory.Yields Closure.Has) := by
  have receiver (name : String) (value : Value)
      (held : (Bindings.empty.set "this" (.object object)).get? name = some value) :
      territory.Holds before.store value.Has := by
    rw [Bindings.get?_set] at held
    split at held
    · cases held
      exact objectHolds
    · nomatch held
  apply (stays_newScope confined (methodHolds _ rfl) receiver).bind
  intro grown middle inner onward around
  apply (stays_newIdentity onward.confined).bind
  intro later after _ farther _
  apply stays_pure farther.confined
  rintro part rfl
  exact around.grow farther.grows

theorem stays_result (confined : before.Confined territory) {closure : Closure} {flow : Flow}
    (closureHolds : territory.Holds before.store closure.Has)
    (flowHolds : territory.Holds before.store flow.Has) :
    (closure.result flow).Stays territory before (Territory.Yields Value.Has) := by
  unfold Closure.result
  split
  · apply stays_look
    apply stays_orFail confined
    intro value found
    exact holds_lookupAt confined (closureHolds _ rfl) found
  · cases flow with
    | normal => exact stays_pure confined Territory.holds_nil
    | returned value => exact stays_pure confined flowHolds.of_returned

/-- A method found in a class and bound to an object. -/
theorem stays_boundMethod (confined : before.Confined territory) {cls : Class}
    {object : Instance} {name : String} (fault : RuntimeFault)
    (classHolds : territory.Holds before.store cls.Has)
    (objectHolds : territory.Holds before.store (Value.object object).Has) :
    (do
      let found ← orFail (cls.method? name) fault
      return Value.function (← found.bind object)).Stays territory before
        (Territory.Yields Value.Has) := by
  unfold orFail
  cases found : cls.method? name with
  | none => exact stays_throw confined
  | some method =>
      exact (stays_bindMethod confined (classHolds.of_method found) objectHolds).bind
        fun _ _ _ onward holds => stays_pure onward.confined holds

theorem stays_property (confined : before.Confined territory) {object : Instance}
    (holds : territory.Holds before.store (Value.object object).Has) (name : Token) :
    (object.property name).Stays territory before (Territory.Yields Value.Has) := by
  apply stays_look
  cases held : (before.store.fieldsOf object.reference).get? name.lexeme with
  | some value =>
      have covers := (holds _ (.inl rfl)).inside (.object object.reference) rfl
      exact stays_pure confined (confined.held covers held)
  | none => exact stays_boundMethod confined _ holds.of_object holds

theorem stays_superMethod (confined : before.Confined territory) (reference : Reference)
    (method : Token) :
    (superMethod reference method).Stays territory before (Territory.Yields Value.Has) := by
  apply stays_look
  unfold orFail
  cases before.distances.get? reference.id with
  | none => exact stays_throw confined
  | some distance =>
      dsimp only
      rw [pure_bind]
      split
      · next superclass foundClass =>
          cases distance with
          | zero => exact stays_throw confined
          | succ distance =>
              dsimp only
              split
              · next object foundObject =>
                  exact stays_boundMethod confined _
                    (holds_lookupAt confined confined.around foundClass)
                    (holds_lookupAt confined confined.around foundObject)
              · exact stays_throw confined
      · exact stays_throw confined

theorem stays_superclassOf (confined : before.Confined territory) (name : Token)
    (superclass : Expr) {value : Value} (holds : territory.Holds before.store value.Has) :
    (superclassOf name superclass value).Stays territory before (Territory.Yields Class.Has) := by
  cases value with
  | cls found => exact stays_pure confined holds
  | nil | bool | number | string | native | function | object => exact stays_throw confined

/-- What declared methods hold. -/
def Bindings.AnyHas (methods : Bindings Closure) (part : Part) : Prop :=
  ∃ name method, methods.get? name = some method ∧ method.Has part

theorem Territory.holds_empty :
    territory.Holds before.store (Bindings.AnyHas .empty) := by
  rintro part ⟨name, method, held, -⟩
  nomatch held

theorem stays_declareMethods (confined : before.Confined territory)
    (declarations : List FunctionDecl) {methods : Bindings Closure}
    (holds : territory.Holds before.store (Bindings.AnyHas methods)) :
    (declareMethods declarations methods).Stays territory before
      (Territory.Yields Bindings.AnyHas) := by
  induction declarations generalizing territory before methods with
  | nil => exact stays_pure confined holds
  | cons declaration rest ih =>
      apply (stays_declare confined _ _).bind
      intro grown middle method onward declared
      apply ih onward.confined
      rintro part ⟨name, other, held, has⟩
      rw [Bindings.get?_set] at held
      split at held
      · cases held
        exact declared part has
      · exact (holds.onward onward) part ⟨name, other, held, has⟩

theorem stays_methodEnvironment (confined : before.Confined territory) {outer : Environment}
    (around : territory.Allows before.store (.environment outer)) {superclass : Option Class}
    (holds : ∀ found, superclass = some found → territory.Holds before.store found.Has) :
    (methodEnvironment outer superclass).Stays territory before fun grown store inner =>
      grown.Allows store (.environment inner) := by
  cases superclass with
  | none => exact stays_pure confined around
  | some found =>
      apply stays_newScope confined around
      intro name value held
      rw [Bindings.get?_set] at held
      split at held
      · cases held
        exact holds found rfl
      · nomatch held

theorem stays_declareClass (confined : before.Confined territory) (name : Token)
    {superclass : Option Class} (methods : List FunctionDecl)
    (holds : ∀ found, superclass = some found → territory.Holds before.store found.Has) :
    (declareClass name superclass methods).Stays territory before fun _ _ _ => True := by
  apply (stays_define confined _ Territory.holds_nil).bind
  intro grown first _ defined _
  apply stays_look
  apply (stays_methodEnvironment defined.confined defined.confined.around fun found same =>
    (holds found same).onward defined).bind
  intro _ second inner entered around
  apply (stays_within entered.confined (stays_declareMethods (entered.confined.enter around)
    methods Territory.holds_empty)).bind
  intro _ third members declared held
  apply (stays_newIdentity declared.confined).bind
  intro later fourth identity counted _
  have inherited := ((defined.trans entered).trans declared).trans counted
  have holdsClass : later.Holds fourth.store
      (Value.cls (.extend ⟨identity, name.lexeme, members⟩ superclass)).Has := by
    intro part has
    obtain own | ⟨found, same, has⟩ := Class.has_extend has
    · exact (held.onward counted) part own
    · exact ((holds found same).onward inherited) part has
  exact (stays_define counted.confined name.lexeme holdsClass).imp fun _ _ _ _ => trivial

/-! ## Evaluation -/

/-- Nothing leaves a territory that takes no more than a number of steps. -/
structure StaysWithin (steps : Nat) : Prop where
  evaluate : AlwaysStays Value.Has (evaluate steps)
  execute : AlwaysStays Flow.Has (execute steps)
  invoke : ∀ {territory : Territory} {before : Machine}, before.Confined territory →
    ∀ (callable : Callable) (arguments : List Value) (line : Nat),
      territory.Holds before.store callable.value.Has →
      (∀ argument ∈ arguments, territory.Holds before.store argument.Has) →
      (invoke steps callable arguments line).Stays territory before (Territory.Yields Value.Has)

section Step

variable {steps : Nat}

theorem stays_evaluate (below : StaysWithin steps) :
    AlwaysStays Value.Has (evaluate (steps + 1)) := by
  intro territory before confined value
  cases value with
  | literal literal =>
      exact stays_pure confined (Territory.holds_of_isPlain (isPlain_literal literal))
  | grouping inner => exact below.evaluate confined inner
  | unary operator operand =>
      exact (below.evaluate confined operand).bind fun _ _ _ onward _ =>
        stays_ofOperator onward.confined _ fun _ => isPlain_unary
  | binary left operator right =>
      exact (below.evaluate confined left).bind fun _ _ _ onward _ =>
        (below.evaluate onward.confined right).bind fun _ _ _ farther _ =>
          stays_ofOperator farther.confined _ fun _ => isPlain_binary
  | logical left operator right =>
      apply (below.evaluate confined left).bind
      intro _ _ one onward holds
      split
      · exact stays_pure onward.confined holds
      · exact below.evaluate onward.confined right
  | «variable» reference => exact stays_read confined reference
  | assign reference value =>
      apply (below.evaluate confined value).bind
      intro _ _ result onward holds
      apply (stays_write onward.confined reference holds).bind
      intro _ _ _ farther _
      exact stays_pure farther.confined (holds.onward farther)
  | call callee paren arguments =>
      apply (below.evaluate confined callee).bind
      intro _ _ function onward calleeHolds
      apply (stays_collect below.evaluate onward.confined arguments).bind
      intro _ _ values farther holds
      cases found : function.callable? with
      | none => exact stays_throw farther.confined
      | some callable =>
          dsimp only
          split
          · apply below.invoke farther.confined
            · rw [Value.value_of_callable? found]
              exact calleeHolds.onward farther
            · exact fun argument member part has => holds part ⟨argument, member, has⟩
          · exact stays_throw farther.confined
  | get object name =>
      apply (below.evaluate confined object).bind
      intro _ _ found onward holds
      cases found with
      | object instance_ => exact stays_property onward.confined holds name
      | nil | bool | number | string | native | function | cls =>
          exact stays_throw onward.confined
  | set object name value =>
      apply (below.evaluate confined object).bind
      intro _ _ found onward objectHolds
      cases found with
      | object instance_ =>
          apply (below.evaluate onward.confined value).bind
          intro grown middle result farther holds
          have covers := ((objectHolds.onward farther) _ (.inl rfl)).inside
            (.object instance_.reference) rfl
          apply (stays_setProperty farther.confined covers name holds).bind
          intro _ _ _ last _
          exact stays_pure last.confined (holds.onward last)
      | nil | bool | number | string | native | function | cls =>
          exact stays_throw onward.confined
  | this reference => exact stays_read confined reference
  | super reference method => exact stays_superMethod confined reference method

/-- Most statements end by going on to the next one. -/
theorem stays_normal (confined : before.Confined territory) :
    (pure .normal : Run Flow).Stays territory before (Territory.Yields Flow.Has) :=
  stays_pure confined Territory.holds_normal

theorem stays_whileLoop (below : StaysWithin steps) (confined : before.Confined territory)
    (condition : Expr) (body : Stmt) :
    (execute (steps + 1) (.whileLoop condition body)).Stays territory before
      (Territory.Yields Flow.Has) := by
  apply (below.evaluate confined condition).bind
  intro _ _ value onward _
  split
  · apply (below.execute onward.confined body).bind
    intro _ _ flow farther holds
    cases flow with
    | normal => exact below.execute farther.confined _
    | returned value => exact stays_pure farther.confined holds
  · exact stays_normal onward.confined

/-- A loop behind its first clause. -/
theorem stays_forLoop (below : StaysWithin steps) (confined : before.Confined territory)
    (condition increment : Option Expr) (body : Stmt) :
    (execute (steps + 1) (.forLoop none condition increment body)).Stays territory before
      (Territory.Yields Flow.Has) := by
  apply (stays_goesOn below.evaluate confined condition).bind
  intro _ _ goesOn onward _
  split
  · apply (below.execute onward.confined body).bind
    intro _ _ flow farther holds
    cases flow with
    | returned value => exact stays_pure farther.confined holds
    | normal =>
        cases increment with
        | none => exact below.execute farther.confined _
        | some step =>
            exact (below.evaluate farther.confined step).bind fun _ _ _ last _ =>
              below.execute last.confined _
  · exact stays_normal onward.confined

theorem stays_classDecl (below : StaysWithin steps) (confined : before.Confined territory)
    (name : Token) (superclass : Option Expr) (methods : List FunctionDecl) :
    (execute (steps + 1) (.classDecl name superclass methods)).Stays territory before
      (Territory.Yields Flow.Has) := by
  cases superclass with
  | none =>
      exact (stays_declareClass confined _ _ (by simp)).bind fun _ _ _ onward _ =>
        stays_normal onward.confined
  | some superclass =>
      apply (below.evaluate confined superclass).bind
      intro _ _ value onward holds
      apply (stays_superclassOf onward.confined _ _ holds).bind
      intro _ _ found farther inherited
      apply (stays_declareClass farther.confined _ _ (by
        rintro other same
        cases same
        exact inherited)).bind
      exact fun _ _ _ last _ => stays_normal last.confined

theorem stays_execute (below : StaysWithin steps) : AlwaysStays Flow.Has (execute (steps + 1)) := by
  intro territory before confined statement
  cases statement with
  | expression value =>
      exact (below.evaluate confined value).bind fun _ _ _ onward _ => stays_normal onward.confined
  | print value =>
      exact (below.evaluate confined value).bind fun _ _ _ onward _ =>
        (stays_print onward.confined _).bind fun _ _ _ farther _ => stays_normal farther.confined
  | var name initializer =>
      cases initializer with
      | none =>
          exact (stays_define confined _ Territory.holds_nil).bind fun _ _ _ onward _ =>
            stays_normal onward.confined
      | some value =>
          exact (below.evaluate confined value).bind fun _ _ _ onward holds =>
            (stays_define onward.confined _ holds).bind fun _ _ _ farther _ =>
              stays_normal farther.confined
  | block body =>
      apply stays_look
      have empty (name : String) (value : Value)
          (held : Bindings.empty.get? name = some value) : territory.Holds before.store value.Has :=
        nomatch held
      apply (stays_newScope confined confined.around empty).bind
      intro _ _ inner onward around
      exact stays_within onward.confined
        (stays_sequence below.execute (onward.confined.enter around) body)
  | conditional condition consequent alternative =>
      apply (below.evaluate confined condition).bind
      intro _ _ value onward _
      split
      · exact below.execute onward.confined consequent
      · cases alternative with
        | none => exact stays_normal onward.confined
        | some alternative => exact below.execute onward.confined alternative
  | whileLoop condition body => exact stays_whileLoop below confined condition body
  | forLoop initializer condition increment body =>
      cases initializer with
      | none => exact stays_forLoop below confined condition increment body
      | some initializer =>
          exact (below.execute confined initializer).bind fun _ _ _ onward _ =>
            below.execute onward.confined _
  | function declaration =>
      exact (stays_declare confined _ _).bind fun _ _ _ onward holds =>
        (stays_define onward.confined _ holds.function).bind fun _ _ _ farther _ =>
          stays_normal farther.confined
  | returning keyword value =>
      cases value with
      | none =>
          exact stays_pure confined Territory.holds_nil.returned
      | some value =>
          exact (below.evaluate confined value).bind fun _ _ _ onward holds =>
            stays_pure onward.confined holds.returned
  | classDecl name superclass methods =>
      exact stays_classDecl below confined name superclass methods

theorem stays_invoke (below : StaysWithin steps) (confined : before.Confined territory)
    (callable : Callable) (arguments : List Value) (line : Nat)
    (holds : territory.Holds before.store callable.value.Has)
    (given : ∀ argument ∈ arguments, territory.Holds before.store argument.Has) :
    (invoke (steps + 1) callable arguments line).Stays territory before
      (Territory.Yields Value.Has) := by
  cases callable with
  | native function => exact stays_callHost confined function line given
  | function closure =>
      have parameters (name : String) (value : Value)
          (held : (closure.parameterBindings arguments).get? name = some value) :
          territory.Holds before.store value.Has :=
        given value (mem_of_parameterBindings held)
      apply (stays_newScope confined (holds _ rfl) parameters).bind
      intro _ _ inner onward around
      apply (stays_within onward.confined
        (stays_sequence below.execute (onward.confined.enter around) _)).bind
      intro _ _ flow farther flowHolds
      exact stays_result farther.confined (holds.onward (onward.trans farther)) flowHolds
  | cls found =>
      apply (stays_newInstance confined holds).bind
      rintro _ _ object onward ⟨rfl, objectHolds⟩
      cases initializes : object.cls.initializer? with
      | none => exact stays_pure onward.confined objectHolds
      | some method =>
          have methodHolds := objectHolds.of_object.of_method initializes
          apply (stays_bindMethod onward.confined methodHolds objectHolds).bind
          intro _ _ bound farther boundHolds
          have givenStill := fun argument member =>
            ((given argument member).onward (onward.trans farther))
          apply (below.invoke farther.confined (.function bound) arguments line boundHolds
            givenStill).bind
          intro _ _ _ last _
          exact stays_pure last.confined (objectHolds.onward (farther.trans last))

end Step

/-- Nothing leaves a territory, however many steps it takes. -/
theorem staysWithin (steps : Nat) : StaysWithin steps := by
  induction steps with
  | zero =>
      exact ⟨fun confined _ => stays_throw confined, fun confined _ => stays_throw confined,
        fun confined _ _ _ _ _ => stays_throw confined⟩
  | succ steps ih => exact ⟨stays_evaluate ih, stays_execute ih, stays_invoke ih⟩

theorem stays_interpret (confined : before.Confined territory) (steps : Nat)
    (program : List Stmt) :
    (interpret steps program).Stays territory before fun _ _ _ => True := by
  induction program generalizing territory before with
  | nil => exact stays_flush confined
  | cons first rest ih =>
      exact ((staysWithin steps).execute confined first).bind fun _ _ _ onward _ =>
        ih onward.confined

end Lox
