import Lox.Proofs.Chronicle.Keeping
import Lox.Proofs.Evaluation.Operators
import Lox.Proofs.Evaluation.Preservation

/-!
# Programs keep the past

Whatever a program does, the chronicle behind it is sound and continues the one in front
of it. Every value that comes up has arisen. And a call of a bound initializer yields the
object that it is bound to. Everything goes by induction on the steps, with expressions,
statements and calls together.
-/

namespace Lox

/-- The value that a statement returns, if it does, has come into being. -/
def Flow.Arisen (past : List Occurrence) : Flow → Prop
  | .normal => True
  | .returned value => value.Arisen past

/-- A step that leaves a sound continuation of the chronicle behind, and what its result
is like. -/
def Chronicling.Keeps {α : Type} (step : Chronicling α) (before : Chronicle)
    (result : Chronicle → α → Prop) : Prop :=
  match step before with
  | .ok value after => before.Grows after ∧ result after value
  | .error _ after => before.Grows after

variable {before after : Chronicle}

theorem Flow.Arisen.grow {flow : Flow} (arisen : flow.Arisen before.past)
    (grows : before.Grows after) : flow.Arisen after.past := by
  cases flow with
  | normal => trivial
  | returned value => exact Value.Arisen.grow arisen grows

/-- What can be called has come into being, as values have. -/
def Callable.Arisen (past : List Occurrence) : Callable → Prop
  | .native _ => True
  | .function closure => (Value.function closure).Arisen past
  | .cls found => (Value.cls found).Arisen past

theorem Value.Arisen.callable {value : Value} {past : List Occurrence} {callable : Callable}
    (arisen : value.Arisen past) (found : value.callable? = some callable) :
    callable.Arisen past := by
  cases value with
  | function | cls | native =>
      cases found
      exact arisen
  | _ => cases found

/-- The body of a function that has arisen is as the grammar has it. -/
theorem Chronicle.Agrees.placed (agrees : before.Agrees) {closure : Closure}
    (arisen : (Value.function closure).Arisen before.past) : closure.declaration.Placed := by
  rcases arisen with declared | ⟨object, bound⟩
  · exact agrees.holds _ declared
  · exact (agrees.holds _ bound).1.placed

namespace Chronicling

variable {α β : Type} {result : Chronicle → α → Prop}

/-! ## Single steps -/

theorem keeps_pure {value : α} (sound : before.Sound) (holds : result before value) :
    Keeps (pure value) before result :=
  ⟨sound.grows, holds⟩

theorem keeps_throw {halt : Halt} (sound : before.Sound) :
    Keeps (throw halt : Chronicling α) before result :=
  sound.grows

theorem Keeps.bind {step : Chronicling α} {next : α → Chronicling β}
    {final : Chronicle → β → Prop} (front : Keeps step before result)
    (back : ∀ middle value, before.Grows middle → result middle value →
      Keeps (next value) middle final) :
    Keeps (step >>= next) before final := by
  change Keeps (EStateM.bind step next) before final
  unfold Keeps EStateM.bind at *
  cases ran : step before with
  | error halt middle =>
      rw [ran] at front
      exact front
  | ok value middle =>
      rw [ran] at front
      obtain ⟨grows, holds⟩ := front
      have behind := back middle value grows holds
      dsimp only
      cases ended : next value middle with
      | error halt last =>
          rw [ended] at behind
          exact grows.trans behind
      | ok value last =>
          rw [ended] at behind
          exact ⟨grows.trans behind.1, behind.2⟩

theorem Keeps.imp {step : Chronicling α} {weaker : Chronicle → α → Prop}
    (keeps : Keeps step before result)
    (implies : ∀ after value, before.Grows after → result after value → weaker after value) :
    Keeps step before weaker := by
  unfold Keeps at *
  split
  · next ran =>
      rw [ran] at keeps
      exact ⟨keeps.1, implies _ _ keeps.1 keeps.2⟩
  · next ran =>
      rw [ran] at keeps
      exact keeps

/-- The chronicle is at hand. -/
theorem keeps_get {next : Chronicle → Chronicling α} (keeps : Keeps (next before) before result) :
    Keeps (get >>= next) before result :=
  keeps

theorem keeps_lift {step : Run α} {holds : Machine → α → Prop} (sound : before.Sound)
    (upholds : step.Upholds before.past before.machine holds) :
    Keeps (lift step) before fun after => holds after.machine := by
  unfold Keeps lift
  unfold Run.Upholds at upholds
  cases ran : step before.machine with
  | error halt machine =>
      rw [ran] at upholds
      exact sound.proceed upholds
  | ok value machine =>
      rw [ran] at upholds
      exact ⟨sound.proceed upholds.1, upholds.2⟩

/-- A step of the machine whose result has to do with the past. -/
theorem keeps_arisen {step : Run α} (holds : List Occurrence → α → Prop) (sound : before.Sound)
    (upholds : step.Upholds before.past before.machine fun _ => holds before.past)
    (grow : ∀ {after value}, before.Grows after → holds before.past value →
      holds after.past value) :
    Keeps (lift step) before fun after => holds after.past := by
  apply (keeps_lift sound upholds).imp
  exact fun _ _ => grow

/-- A step of the machine that has a value. -/
theorem keeps_value {step : Run Value} (sound : before.Sound)
    (upholds : step.Upholds before.past before.machine fun _ value => value.Arisen before.past) :
    Keeps (lift step) before fun after value => value.Arisen after.past :=
  keeps_arisen (fun past (value : Value) => value.Arisen past) sound upholds fun grows arisen =>
    arisen.grow grows

theorem keeps_fail {fault : RuntimeFault} (sound : before.Sound) :
    Keeps (lift (Run.fail fault) : Chronicling α) before result :=
  sound.proceed sound.present

theorem keeps_note (occurrence : Occurrence) (sound : before.Sound)
    (other : ∀ machine, occurrence ≠ .moment machine)
    (silent : ∀ reference name, occurrence.storedIn? reference name = none)
    (holds : occurrence.Holds before.past before.machine.store) :
    Keeps (note occurrence) before fun after _ => occurrence ∈ after.past :=
  ⟨sound.add other silent holds, List.mem_append_right _ (List.mem_singleton_self _)⟩

/-- The environment of statements has nothing to do with the past. -/
theorem keeps_within {environment : Environment} {step : Chronicling Flow} (sound : before.Sound)
    (inside : ∀ entered, before.Grows entered →
      Keeps step entered fun after flow => flow.Arisen after.past) :
    Keeps (within environment step) before fun after flow => flow.Arisen after.past := by
  have entered : before.Grows
      (before.proceed { before.machine with environment := environment }) :=
    sound.proceed (sound.present.of_same rfl rfl)
  have body := inside _ entered
  unfold within
  unfold Keeps at body ⊢
  dsimp only
  cases ran : step (before.proceed { before.machine with environment := environment }) with
  | error halt last =>
      rw [ran] at body
      exact (entered.trans body).trans (body.sound.proceed (body.sound.present.of_same rfl rfl))
  | ok flow last =>
      rw [ran] at body
      have left : last.Grows (last.proceed
          { last.machine with environment := before.machine.environment }) :=
        body.1.sound.proceed (body.1.sound.present.of_same rfl rfl)
      exact ⟨(entered.trans body.1).trans left, body.2.grow left⟩

/-! ## Functions, classes and instances -/

theorem keeps_declare (sound : before.Sound) {declaration : FunctionDecl}
    (placed : declaration.Placed) :
    Keeps (declare declaration) before fun after closure =>
      (Value.function closure).Arisen after.past := by
  apply (keeps_lift sound (Run.upholds_declare sound.present declaration false)).bind
  rintro middle closure grows ⟨rfl, -⟩
  apply (keeps_note (.function closure) grows.sound (by simp) (fun _ _ => rfl) placed).bind
  intro last _ growsOn happened
  exact keeps_pure growsOn.sound (.inl happened)

/-- A method that is bound is noted as a method of the object. -/
theorem keeps_bind (sound : before.Sound) {method : Closure} (isMethod : method.IsMethod)
    {object : Instance} (arisen : (Value.object object).Arisen before.past) :
    Keeps (bind method object) before fun after bound =>
      bound.declaration = method.declaration ∧ .bound bound object ∈ after.past := by
  apply (keeps_lift sound (Run.upholds_bindMethod sound.present isMethod arisen)).bind
  rintro middle bound grows ⟨declaration, isBound⟩
  apply (keeps_note (.bound bound object) grows.sound (by simp) (fun _ _ => rfl)
    ⟨isBound, arisen.grow grows⟩).bind
  intro last _ growsOn happened
  exact keeps_pure growsOn.sound ⟨declaration, happened⟩

theorem keeps_create (sound : before.Sound) {cls : Class}
    (arisen : (Value.cls cls).Arisen before.past) :
    Keeps (create cls) before fun after object =>
      object.cls = cls ∧ (Value.object object).Arisen after.past := by
  apply (keeps_lift sound (Run.upholds_newInstance sound.present cls)).bind
  rintro middle object grows ⟨rfl, inStore⟩
  apply (keeps_note (.created object) grows.sound (by simp) (fun _ _ => rfl)
    ⟨inStore, arisen.grow grows⟩).bind
  intro last _ growsOn happened
  exact keeps_pure growsOn.sound ⟨rfl, happened⟩

/-- A method of a class, bound to an object. -/
theorem keeps_method (sound : before.Sound) {cls : Class} {object : Instance} {name : Token}
    (arisen : (Value.cls cls).Arisen before.past)
    (receiver : (Value.object object).Arisen before.past) :
    Keeps (do
      let method ← lift (Run.orFail (cls.method? name.lexeme) (.propertyAt name))
      return Value.function (← bind method object)) before fun after value =>
        value.Arisen after.past := by
  have found : (Run.orFail (cls.method? name.lexeme) (.propertyAt name)).Upholds before.past
      before.machine fun _ method => method.IsMethod :=
    Run.upholds_orFail sound.present fun method found => sound.present.isMethod arisen found
  apply (keeps_lift sound found).bind
  intro middle method grows isMethod
  apply (keeps_bind grows.sound isMethod (receiver.grow grows)).bind
  rintro last bound growsOn ⟨-, happened⟩
  exact keeps_pure growsOn.sound (.inr ⟨object, happened⟩)

theorem keeps_property (sound : before.Sound) {object : Instance}
    (arisen : (Value.object object).Arisen before.past) (name : Token) :
    Keeps (property object name) before fun after value => value.Arisen after.past := by
  apply keeps_get
  cases held : (before.machine.store.fieldsOf object.reference).get? name.lexeme with
  | some value => exact keeps_pure sound (sound.present.arisen_of_field held)
  | none => exact keeps_method sound (sound.present.holds _ arisen).2 arisen

/-- The value is in the store as soon as it is written down. -/
theorem keeps_setProperty (sound : before.Sound) {object : Instance}
    (created : (Value.object object).Arisen before.past) (name : Token) {value : Value}
    (arisen : value.Arisen before.past) :
    Keeps (setProperty object name value) before fun _ _ => True := by
  have stored := sound.concat (by simp) (sound.present.setField name.lexeme created arisen)
  exact ⟨stored.trans (stored.sound.proceed stored.sound.present), trivial⟩

theorem keeps_superMethod (sound : before.Sound) (reference : Reference) (method : Token) :
    Keeps (superMethod reference method) before fun after value => value.Arisen after.past := by
  apply keeps_get
  have known : (Run.orFail (before.machine.distances.get? reference.id)
      (.variableAt reference.name)).Upholds before.past before.machine fun _ _ => True :=
    Run.upholds_orFail sound.present fun _ _ => trivial
  apply (keeps_lift sound known).bind
  intro middle distance grows _
  cases above : before.machine.environment.lookupAt? before.machine.store distance "super" with
  | none => exact keeps_fail grows.sound
  | some found =>
      have foundArisen := Run.arisen_of_lookupAt? sound.present above
      cases found with
      | cls superclass =>
          cases distance with
          | zero => exact keeps_fail grows.sound
          | succ distance =>
              dsimp only
              cases held : before.machine.environment.lookupAt? before.machine.store distance
                "this" with
              | none => exact keeps_fail grows.sound
              | some receiver =>
                  have receiverArisen := Run.arisen_of_lookupAt? sound.present held
                  cases receiver with
                  | object object =>
                      exact keeps_method grows.sound (foundArisen.grow grows)
                        (receiverArisen.grow grows)
                  | _ => exact keeps_fail grows.sound
      | _ => exact keeps_fail grows.sound

theorem keeps_declareClass (sound : before.Sound) {name : Token} (ordinary : name.IsOrdinary)
    {superclass : Option Class}
    (arisen : ∀ found, superclass = some found → (Value.cls found).Arisen before.past)
    {methods : List FunctionDecl} (placed : ∀ method ∈ methods, method.Placed) :
    Keeps (declareClass name superclass methods) before fun _ _ => True := by
  have unset : Value.nil.Arisen before.past := trivial
  apply (keeps_lift sound (Run.upholds_define sound.present ordinary unset)).bind
  intro first _ grows _
  apply keeps_get
  have inherited (found : Class) (given : superclass = some found) :=
    (arisen found given).grow grows
  apply (keeps_lift grows.sound
    (Run.upholds_methodEnvironment grows.sound.present _ inherited)).bind
  intro second inner growsOn _
  have entered : Chronicle.Agrees ⟨{ second.machine with environment := inner }, second.past⟩ :=
    growsOn.sound.present.of_same rfl rfl
  have memberless (text : String) (method : Closure)
      (held : (Bindings.empty : Bindings Closure).get? text = some method) : method.IsMethod :=
    nomatch held
  have members := Run.upholds_declareMethods entered placed memberless
  apply (keeps_lift growsOn.sound (Run.upholds_within members)).bind
  rintro third members growsThere ⟨declarations, all⟩
  apply (keeps_lift growsThere.sound (Run.upholds_newIdentity growsThere.sound.present)).bind
  intro fourth identity growsLast _
  let layer : ClassLayer := ⟨identity, name.lexeme, members⟩
  have has : layer.HasMethods methods :=
    ⟨fun text => (declarations text).trans (Option.or_none ..), all⟩
  have holds := Occurrence.holds_declared has fourth.machine.store fun found given =>
    (inherited found given).grow ((growsOn.trans growsThere).trans growsLast)
  apply (keeps_note _ growsLast.sound (by simp) (fun _ _ => rfl) holds).bind
  intro fifth _ growsNoted happened
  have declared : (Value.cls (Class.extend layer superclass)).Arisen fifth.past :=
    ⟨methods, happened⟩
  exact keeps_lift growsNoted.sound
    (Run.upholds_define growsNoted.sound.present ordinary declared)

/-! ## Lists -/

theorem keeps_sequence {execute : Stmt → Chronicling Flow} {statements : List Stmt}
    (each : ∀ statement ∈ statements, ∀ middle : Chronicle, middle.Sound →
      Keeps (execute statement) middle fun after flow => flow.Arisen after.past)
    (sound : before.Sound) :
    Keeps (sequence execute statements) before fun after flow => flow.Arisen after.past := by
  induction statements generalizing before with
  | nil => exact keeps_pure sound trivial
  | cons first rest ih =>
      apply (each first (.head _) before sound).bind
      intro middle flow grows arisen
      cases flow with
      | returned value => exact keeps_pure grows.sound arisen
      | normal => exact ih (fun statement later => each statement (.tail _ later)) grows.sound

theorem keeps_collect {evaluate : Expr → Chronicling Value} {values : List Expr}
    (each : ∀ value ∈ values, ∀ middle : Chronicle, middle.Sound →
      Keeps (evaluate value) middle fun after result => result.Arisen after.past)
    (sound : before.Sound) :
    Keeps (collect evaluate values) before fun after results =>
      ∀ result ∈ results, result.Arisen after.past := by
  induction values generalizing before with
  | nil => exact keeps_pure sound (by simp)
  | cons first rest ih =>
      apply (each first (.head _) before sound).bind
      intro middle result grows arisen
      apply (ih (fun value later => each value (.tail _ later)) grows.sound).bind
      intro last results growsOn others
      exact keeps_pure growsOn.sound (List.forall_mem_cons.mpr ⟨arisen.grow growsOn, others⟩)

theorem keeps_goesOn {evaluate : Expr → Chronicling Value} {condition : Option Expr}
    (each : ∀ value, condition = some value →
      Keeps (evaluate value) before fun after result => result.Arisen after.past)
    (sound : before.Sound) :
    Keeps (goesOn evaluate condition) before fun _ _ => True := by
  cases condition with
  | none => exact keeps_pure sound trivial
  | some value =>
      apply (each value rfl).bind
      exact fun middle _ grows _ => keeps_pure grows.sound trivial

/-! ## Evaluation -/

/-- A call of a bound initializer yields the object that it is bound to. -/
def Yields (callable : Callable) (past : List Occurrence) (value : Value) : Prop :=
  ∀ closure object, callable = .function closure → .bound closure object ∈ past →
    closure.name = Class.initializerName → value = .object object

/-- What takes no more than a number of steps keeps the past. -/
structure KeepsWithin (steps : Nat) : Prop where
  evaluate : ∀ {value : Expr} {before : Chronicle}, value.Placed → before.Sound →
    Keeps (evaluate steps value) before fun after result => result.Arisen after.past
  execute : ∀ {statement : Stmt} {before : Chronicle}, statement.Placed → before.Sound →
    Keeps (execute steps statement) before fun after flow => flow.Arisen after.past
  invoke : ∀ {callable : Callable} {arguments : List Value} {line : Nat} {before : Chronicle},
    callable.Arisen before.past → (∀ value ∈ arguments, value.Arisen before.past) →
    before.Sound →
    Keeps (invoke steps callable arguments line) before fun after value =>
      value.Arisen after.past ∧ Yields callable before.past value

section Step

variable {steps : Nat} (below : KeepsWithin steps)
include below

theorem keeps_evaluate {value : Expr} (placed : value.Placed) (sound : before.Sound) :
    Keeps (evaluate (steps + 1) value) before fun after result => result.Arisen after.past := by
  cases value with
  | literal literal => exact keeps_pure sound ((isPlain_literal literal).arisen _)
  | grouping inner => exact below.evaluate placed sound
  | unary operator operand =>
      have operandPlaced : operand.Placed := placed
      apply (below.evaluate operandPlaced sound).bind
      intro middle value grows _
      exact keeps_value grows.sound
        (Run.upholds_ofOperator grows.sound.present operator fun _ => isPlain_unary)
  | binary left operator right =>
      apply (below.evaluate placed.1 sound).bind
      intro middle one grows _
      apply (below.evaluate placed.2 grows.sound).bind
      intro last other growsOn _
      exact keeps_value growsOn.sound
        (Run.upholds_ofOperator growsOn.sound.present operator fun _ => isPlain_binary)
  | logical left operator right =>
      apply (below.evaluate placed.1 sound).bind
      intro middle one grows arisen
      split
      · exact keeps_pure grows.sound arisen
      · exact below.evaluate placed.2 grows.sound
  | «variable» reference => exact keeps_value sound (Run.upholds_read sound.present reference)
  | assign reference value =>
      apply (below.evaluate placed.2 sound).bind
      intro middle value grows arisen
      apply (keeps_lift grows.sound
        (Run.upholds_write grows.sound.present placed.1 arisen)).bind
      exact fun last _ growsOn _ => keeps_pure growsOn.sound (arisen.grow growsOn)
  | call callee paren arguments =>
      have others := Expr.listPlaced_iff.mp placed.2
      apply (below.evaluate placed.1 sound).bind
      intro middle function grows arisen
      apply (keeps_collect (fun value given _ => below.evaluate (others value given))
        grows.sound).bind
      intro last values growsOn given
      cases found : function.callable? with
      | none => exact keeps_fail growsOn.sound
      | some callable =>
          dsimp only
          split
          · apply (below.invoke ((arisen.grow growsOn).callable found) given growsOn.sound).imp
            exact fun _ _ _ => And.left
          · exact keeps_fail growsOn.sound
  | get object name =>
      have objectPlaced : object.Placed := placed
      apply (below.evaluate objectPlaced sound).bind
      intro middle value grows arisen
      cases value with
      | object found => exact keeps_property grows.sound arisen name
      | _ => exact keeps_fail grows.sound
  | set object name value =>
      apply (below.evaluate placed.1 sound).bind
      intro middle target grows targetArisen
      cases target with
      | object found =>
          apply (below.evaluate placed.2 grows.sound).bind
          intro last value growsOn arisen
          apply (keeps_setProperty growsOn.sound (targetArisen.grow growsOn) name arisen).bind
          exact fun after _ growsLast _ => keeps_pure growsLast.sound (arisen.grow growsLast)
      | _ => exact keeps_fail grows.sound
  | this reference => exact keeps_value sound (Run.upholds_read sound.present reference)
  | super reference method => exact keeps_superMethod sound reference method

theorem keeps_whileLoop {condition : Expr} {body : Stmt}
    (placed : (Stmt.whileLoop condition body).Placed) (sound : before.Sound) :
    Keeps (execute (steps + 1) (.whileLoop condition body)) before
      fun after flow => flow.Arisen after.past := by
  apply (below.evaluate placed.1 sound).bind
  intro middle value grows _
  split
  · apply (below.execute placed.2.2 grows.sound).bind
    intro last flow growsOn arisen
    cases flow with
    | returned value => exact keeps_pure growsOn.sound arisen
    | normal => exact below.execute placed growsOn.sound
  · exact keeps_pure grows.sound trivial

/-- A loop behind its first clause. -/
theorem keeps_forLoop {condition increment : Option Expr} {body : Stmt}
    (placed : (Stmt.forLoop none condition increment body).Placed) (sound : before.Sound) :
    Keeps (execute (steps + 1) (.forLoop none condition increment body)) before
      fun after flow => flow.Arisen after.past := by
  have ⟨_, conditionPlaced, incrementPlaced, bodyPlaced⟩ := placed
  have tested : Keeps (goesOn (evaluate steps) condition) before fun _ _ => True := by
    refine keeps_goesOn ?_ sound
    rintro value rfl
    exact below.evaluate conditionPlaced sound
  apply tested.bind
  intro middle goesOn grows _
  split
  · apply (below.execute bodyPlaced.2 grows.sound).bind
    intro last flow growsOn arisen
    cases flow with
    | returned value => exact keeps_pure growsOn.sound arisen
    | normal =>
        cases increment with
        | none => exact below.execute placed growsOn.sound
        | some step =>
            apply (below.evaluate incrementPlaced growsOn.sound).bind
            exact fun after _ growsLast _ => below.execute placed growsLast.sound
  · exact keeps_pure grows.sound trivial

theorem keeps_classDecl {name : Token} {superclass : Option Expr} {methods : List FunctionDecl}
    (placed : (Stmt.classDecl name superclass methods).Placed) (sound : before.Sound) :
    Keeps (execute (steps + 1) (.classDecl name superclass methods)) before
      fun after flow => flow.Arisen after.past := by
  have members := FunctionDecl.listPlaced_iff.mp placed.2.2
  cases superclass with
  | none =>
      apply (keeps_declareClass sound placed.1 (by simp) members).bind
      exact fun last _ growsOn _ => keeps_pure growsOn.sound trivial
  | some value =>
      obtain ⟨reference, rfl⟩ := placed.2.1
      have named : (Expr.variable reference).Placed := trivial
      apply (below.evaluate named sound).bind
      intro middle result grows arisen
      apply (keeps_arisen (fun past cls => (Value.cls cls).Arisen past) grows.sound
        (Run.upholds_superclassOf grows.sound.present name _ arisen)
        fun growsOn found => found.grow growsOn).bind
      intro last cls growsOn found
      apply (keeps_declareClass growsOn.sound placed.1 (by simpa using found) members).bind
      exact fun after _ growsLast _ => keeps_pure growsLast.sound trivial

theorem keeps_execute {statement : Stmt} (placed : statement.Placed) (sound : before.Sound) :
    Keeps (execute (steps + 1) statement) before fun after flow => flow.Arisen after.past := by
  cases statement with
  | expression value =>
      apply (below.evaluate placed sound).bind
      exact fun middle _ grows _ => keeps_pure grows.sound trivial
  | print value =>
      apply (below.evaluate placed sound).bind
      intro middle result grows _
      apply (keeps_lift grows.sound (Run.upholds_print grows.sound.present result)).bind
      exact fun last _ growsOn _ => keeps_pure growsOn.sound trivial
  | var name initializer =>
      cases initializer with
      | none =>
          have unset : Value.nil.Arisen before.past := trivial
          apply (keeps_lift sound (Run.upholds_define sound.present placed.1 unset)).bind
          exact fun last _ growsOn _ => keeps_pure growsOn.sound trivial
      | some value =>
          apply (below.evaluate placed.2 sound).bind
          intro middle value grows arisen
          apply (keeps_lift grows.sound
            (Run.upholds_define grows.sound.present placed.1 arisen)).bind
          exact fun last _ growsOn _ => keeps_pure growsOn.sound trivial
  | block body =>
      have members := Stmt.listPlaced_iff.mp placed
      apply keeps_get
      apply (keeps_lift sound (Run.upholds_newScope sound.present _ (by rintro _ _ ⟨⟩))).bind
      intro middle inner grows _
      apply keeps_within grows.sound
      intro entered growsOn
      exact keeps_sequence (fun statement inside _ => below.execute (members statement inside))
        growsOn.sound
  | conditional condition consequent alternative =>
      apply (below.evaluate placed.1 sound).bind
      intro middle value grows _
      split
      · exact below.execute placed.2.1.2 grows.sound
      · cases alternative with
        | none => exact keeps_pure grows.sound trivial
        | some other => exact below.execute placed.2.2.2 grows.sound
  | whileLoop condition body => exact keeps_whileLoop below placed sound
  | forLoop initializer condition increment body =>
      cases initializer with
      | none => exact keeps_forLoop below placed sound
      | some clause =>
          have again : (Stmt.forLoop none condition increment body).Placed := ⟨trivial, placed.2⟩
          apply (below.execute placed.1.2 sound).bind
          exact fun middle _ grows _ => below.execute again grows.sound
  | function declaration =>
      have named : declaration.name.IsOrdinary := FunctionDecl.Placed.name placed
      apply (keeps_declare sound placed).bind
      intro middle closure grows arisen
      apply (keeps_lift grows.sound (Run.upholds_define grows.sound.present named arisen)).bind
      exact fun last _ growsOn _ => keeps_pure growsOn.sound trivial
  | returning keyword value =>
      cases value with
      | none => exact keeps_pure sound trivial
      | some value =>
          apply (below.evaluate placed sound).bind
          exact fun middle _ grows arisen => keeps_pure grows.sound arisen
  | classDecl name superclass methods => exact keeps_classDecl below placed sound

theorem keeps_invoke {callable : Callable} {arguments : List Value} {line : Nat}
    (arisen : callable.Arisen before.past) (given : ∀ value ∈ arguments, value.Arisen before.past)
    (sound : before.Sound) :
    Keeps (invoke (steps + 1) callable arguments line) before fun after value =>
      value.Arisen after.past ∧ Yields callable before.past value := by
  cases callable with
  | native function =>
      apply (keeps_value sound (Run.upholds_callHost sound.present function arguments line)).imp
      exact fun _ _ _ arisen => ⟨arisen, by rintro _ _ ⟨⟩⟩
  | function closure =>
      have body := Stmt.listPlaced_iff.mp (FunctionDecl.Placed.body (sound.present.placed arisen))
      have parameters (name : String) (value : Value)
          (held : (closure.parameterBindings arguments).get? name = some value) :=
        given value (mem_of_parameterBindings held)
      apply (keeps_lift sound
        (Run.upholds_newScope sound.present closure.environment parameters)).bind
      intro middle inner grows _
      have ran : Keeps (within inner (sequence (execute steps) closure.declaration.body)) middle
          fun after flow => flow.Arisen after.past := by
        apply keeps_within grows.sound
        intro entered growsOn
        exact keeps_sequence (fun statement inside _ => below.execute (body statement inside))
          growsOn.sound
      apply ran.bind
      intro last flow growsOn returned
      have arisen (value : Value) (same : flow = .returned value) : value.Arisen last.past := by
        subst same
        exact returned
      have yields := Run.upholds_result growsOn.sound.present closure arisen
      apply (keeps_lift growsOn.sound yields).imp
      rintro after value growsLast ⟨valueArisen, yielded⟩
      refine ⟨valueArisen.grow growsLast, ?_⟩
      rintro _ object ⟨⟩ happened named
      exact yielded object ((grows.trans growsOn).past.subset happened) named
  | cls found =>
      have classArisen : (Value.cls found).Arisen before.past := arisen
      apply (keeps_create sound classArisen).bind
      rintro middle object grows ⟨rfl, created⟩
      have none_yields (value : Value) : Yields (.cls object.cls) before.past value := by
        rintro _ _ ⟨⟩
      cases initializes : object.cls.initializer? with
      | none => exact keeps_pure grows.sound ⟨created, none_yields _⟩
      | some initializer =>
          have isMethod := grows.sound.present.isMethod (classArisen.grow grows) initializes
          apply (keeps_bind grows.sound isMethod created).bind
          rintro last bound growsOn ⟨-, happened⟩
          have boundArisen : (Callable.function bound).Arisen last.past :=
            .inr ⟨object, happened⟩
          apply (below.invoke boundArisen
            (fun value inside => (given value inside).grow (grows.trans growsOn))
            growsOn.sound).bind
          intro after _ growsLast _
          exact keeps_pure growsLast.sound ⟨created.grow (growsOn.trans growsLast), none_yields _⟩

end Step

/-- Everything keeps the past, however many steps it takes. -/
theorem keepsWithin (steps : Nat) : KeepsWithin steps := by
  induction steps with
  | zero =>
      exact ⟨fun _ sound => keeps_throw sound, fun _ sound => keeps_throw sound,
        fun _ _ sound => keeps_throw sound⟩
  | succ steps ih => exact ⟨keeps_evaluate ih, keeps_execute ih, keeps_invoke ih⟩

/-- A whole program keeps the past. -/
theorem keeps_interpret (steps : Nat) {program : List Stmt} (placed : Stmt.ListPlaced program)
    (sound : before.Sound) : Keeps (interpret steps program) before fun _ _ => True := by
  induction program generalizing before with
  | nil => exact keeps_lift sound (Run.upholds_flush sound.present)
  | cons first rest ih =>
      apply ((keepsWithin steps).execute placed.1 sound).bind
      exact fun middle _ grows _ => ih placed.2 grows.sound

end Chronicling

end Lox
