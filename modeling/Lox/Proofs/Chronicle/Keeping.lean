import Lox.Proofs.Chronicle.Agreement

/-!
# Steps keep the past

A chronicle is sound if the machine agreed with the past in every state that it has
been in. Each step leaves a sound chronicle behind, whether it succeeds or halts, in
which the past is only continued.
-/

namespace Lox

/-- The machine agrees with the past and always has. -/
structure Chronicle.Sound (chronicle : Chronicle) : Prop where
  present : chronicle.Agrees
  moments : ∀ front machine back, chronicle.past = front ++ .moment machine :: back →
    Chronicle.Agrees ⟨machine, front⟩

/-- A sound chronicle that continues another one. -/
structure Chronicle.Grows (before after : Chronicle) : Prop where
  sound : after.Sound
  past : before.past <+: after.past

variable {before middle after chronicle : Chronicle} {machine : Machine} {past : List Occurrence}

namespace Chronicle

theorem Sound.grows (sound : chronicle.Sound) : chronicle.Grows chronicle :=
  ⟨sound, List.prefix_refl _⟩

theorem Grows.trans (first : before.Grows middle) (second : middle.Grows after) :
    before.Grows after :=
  ⟨second.sound, first.past.trans second.past⟩

/-- One more occurrence. -/
theorem Sound.concat {occurrence : Occurrence} {next : Machine} (sound : chronicle.Sound)
    (moment : ∀ machine, occurrence = .moment machine → Agrees ⟨machine, chronicle.past⟩)
    (agrees : Agrees ⟨next, chronicle.past ++ [occurrence]⟩) :
    chronicle.Grows ⟨next, chronicle.past ++ [occurrence]⟩ := by
  refine ⟨⟨agrees, fun front machine back split => ?_⟩, List.prefix_append _ _⟩
  dsimp only at split
  rcases List.eq_nil_or_concat back with rfl | ⟨rest, last, rfl⟩
  · obtain ⟨rfl, same⟩ := List.append_inj' split rfl
    exact moment machine (List.cons.inj same).1
  · rw [List.concat_eq_append, ← List.cons_append, ← List.append_assoc] at split
    exact sound.moments front machine rest (List.append_inj' split rfl).1

/-- The next state, if it agrees with the past. -/
theorem Sound.proceed (sound : chronicle.Sound) (agrees : Agrees ⟨machine, chronicle.past⟩) :
    chronicle.Grows (chronicle.proceed machine) := by
  refine sound.concat ?_ (agrees.add (fun _ _ => rfl) trivial)
  rintro _ ⟨⟩
  exact agrees

/-- A chronicle that breaks off at any moment is sound as well. -/
theorem Sound.at (sound : chronicle.Sound) {front back : List Occurrence}
    (split : chronicle.history = front ++ .moment machine :: back) : Sound ⟨machine, front⟩ := by
  have moments := (sound.proceed sound.present).sound.moments
  refine ⟨moments front machine back split, fun earlier other later same => ?_⟩
  dsimp only at same
  apply moments earlier other (later ++ .moment machine :: back)
  change chronicle.history = _
  rw [split, same, List.append_assoc, List.cons_append]

/-- Something else than the next state. -/
theorem Sound.add {occurrence : Occurrence} (sound : chronicle.Sound)
    (other : ∀ machine, occurrence ≠ .moment machine)
    (silent : ∀ reference name, occurrence.storedIn? reference name = none)
    (holds : occurrence.Holds chronicle.past chronicle.machine.store) :
    chronicle.Grows (chronicle.add occurrence) :=
  sound.concat (fun machine same => absurd same (other machine)) (sound.present.add silent holds)

end Chronicle

theorem Value.Arisen.grow {value : Value} (arisen : value.Arisen before.past)
    (grows : before.Grows after) : value.Arisen after.past :=
  arisen.mono grows.past.subset

/-! ## Steps of the machine -/

/-- A step after which the machine still agrees with a past, and what its result is
like. -/
def Run.Upholds {α : Type} (step : Run α) (past : List Occurrence) (machine : Machine)
    (result : Machine → α → Prop) : Prop :=
  match step machine with
  | .ok value after => Chronicle.Agrees ⟨after, past⟩ ∧ result after value
  | .error _ after => Chronicle.Agrees ⟨after, past⟩

namespace Run

variable {α β : Type} {result : Machine → α → Prop}

theorem upholds_pure {value : α} (agrees : Chronicle.Agrees ⟨machine, past⟩)
    (holds : result machine value) : (pure value : Run α).Upholds past machine result :=
  ⟨agrees, holds⟩

theorem upholds_fail {fault : RuntimeFault} (agrees : Chronicle.Agrees ⟨machine, past⟩) :
    (fail fault : Run α).Upholds past machine result :=
  agrees

theorem upholds_get (agrees : Chronicle.Agrees ⟨machine, past⟩) :
    (get : Run Machine).Upholds past machine fun after found => machine = after ∧ machine = found :=
  ⟨agrees, rfl, rfl⟩

theorem Upholds.bind {step : Run α} {next : α → Run β} {final : Machine → β → Prop}
    (front : step.Upholds past machine result)
    (back : ∀ middle value, Chronicle.Agrees ⟨middle, past⟩ → result middle value →
      (next value).Upholds past middle final) :
    (step >>= next).Upholds past machine final := by
  change Run.Upholds (EStateM.bind step next) past machine final
  unfold Upholds EStateM.bind at *
  cases ran : step machine with
  | error halt middle =>
      rw [ran] at front
      exact front
  | ok value middle =>
      rw [ran] at front
      exact back middle value front.1 front.2

theorem upholds_orFail {found : Option α} {fault : RuntimeFault}
    (agrees : Chronicle.Agrees ⟨machine, past⟩)
    (holds : ∀ value, found = some value → result machine value) :
    (orFail found fault).Upholds past machine result := by
  cases found with
  | none => exact upholds_fail agrees
  | some value => exact upholds_pure agrees (holds value rfl)

/-- The environment of a step has nothing to do with the past. -/
theorem upholds_within {environment : Environment} {step : Run α} {holds : α → Prop}
    (inside : step.Upholds past { machine with environment := environment } fun _ => holds) :
    (within environment step).Upholds past machine fun _ => holds := by
  unfold Upholds within at *
  cases ran : step { machine with environment := environment } with
  | error halt after =>
      rw [ran] at inside
      exact inside.of_same rfl rfl
  | ok value after =>
      rw [ran] at inside
      exact ⟨inside.1.of_same rfl rfl, inside.2⟩

theorem upholds_newIdentity (agrees : Chronicle.Agrees ⟨machine, past⟩) :
    newIdentity.Upholds past machine fun _ _ => True :=
  ⟨agrees.of_same rfl rfl, trivial⟩

theorem upholds_print (agrees : Chronicle.Agrees ⟨machine, past⟩) (value : Value) :
    (print value).Upholds past machine fun _ _ => True := by
  unfold Upholds print
  cases machine.sink.writeAll (value.pieces ++ ["\n"]) with
  | mk refusal sink =>
      cases refusal with
      | none => exact ⟨agrees.of_same rfl rfl, trivial⟩
      | some reason => exact agrees.of_same rfl rfl

theorem upholds_flush (agrees : Chronicle.Agrees ⟨machine, past⟩) :
    flush.Upholds past machine fun _ _ => True := by
  apply (upholds_get agrees).bind
  rintro _ _ agrees ⟨rfl, rfl⟩
  split
  · exact upholds_pure agrees trivial
  · exact upholds_fail agrees

theorem upholds_callHost (agrees : Chronicle.Agrees ⟨machine, past⟩) (function : Native)
    (arguments : List Value) (line : Nat) :
    (callHost function arguments line).Upholds past machine fun _ value => value.Arisen past := by
  apply (upholds_get agrees).bind
  rintro _ _ _ ⟨rfl, rfl⟩
  have counted : (set { machine with hostCalls := machine.hostCalls + 1 } : Run PUnit).Upholds past
      machine fun _ _ => True :=
    ⟨agrees.of_same rfl rfl, trivial⟩
  apply counted.bind
  intro _ _ counted _
  cases answer : machine.host function machine.hostCalls arguments with
  | ok value => exact upholds_pure counted ((agrees.host _ _ _ _ answer).arisen past)
  | error message => exact upholds_fail counted

theorem upholds_ofOperator (agrees : Chronicle.Agrees ⟨machine, past⟩) (operator : Token)
    {outcome : Except TypeFault Value} (plain : ∀ value, outcome = .ok value → value.IsPlain) :
    (ofOperator operator outcome).Upholds past machine fun _ value => value.Arisen past := by
  cases outcome with
  | ok value => exact upholds_pure agrees ((plain value rfl).arisen past)
  | error fault => exact upholds_fail agrees

theorem upholds_define (agrees : Chronicle.Agrees ⟨machine, past⟩) {name : String}
    (ordinary : IsOrdinaryName name) {value : Value} (arisen : value.Arisen past) :
    (define name value).Upholds past machine fun _ _ => True := by
  obtain ⟨store, environment, distances, nextIdentity, hostCalls, sink, host⟩ := machine
  cases environment with
  | nil => exact ⟨agrees, trivial⟩
  | cons scope outer => exact ⟨agrees.define scope ordinary arisen, trivial⟩

theorem upholds_newScope (agrees : Chronicle.Agrees ⟨machine, past⟩) (outer : Environment)
    {bindings : Bindings Value}
    (arisen : ∀ name value, bindings.get? name = some value → value.Arisen past) :
    (newScope outer bindings).Upholds past machine fun after environment =>
      ∃ scope, environment = scope :: outer ∧ scope.index < after.store.scopes.size ∧
        after.store.scope scope = bindings := by
  refine ⟨agrees.addScope arisen, ⟨machine.store.scopes.size⟩, rfl, ?_, ?_⟩
  · simp
  · exact (Store.scope_addScope ..).trans (if_pos rfl)

theorem upholds_newInstance (agrees : Chronicle.Agrees ⟨machine, past⟩) (cls : Class) :
    (newInstance cls).Upholds past machine fun after object =>
      object.cls = cls ∧ object.reference.index < after.store.fields.size :=
  ⟨agrees.addInstance, rfl, by simp⟩

/-! ### Names -/

/-- What is found in an environment has arisen. -/
theorem arisen_of_lookup? (agrees : Chronicle.Agrees ⟨machine, past⟩) {environment : Environment}
    {name : String} {value : Value} (found : environment.lookup? machine.store name = some value) :
    value.Arisen past := by
  obtain ⟨scope, -, held⟩ := List.exists_of_findSome?_eq_some found
  exact agrees.held scope name value held

theorem arisen_of_lookupAt? (agrees : Chronicle.Agrees ⟨machine, past⟩)
    {environment : Environment} {distance : Nat} {name : String} {value : Value}
    (found : environment.lookupAt? machine.store distance name = some value) :
    value.Arisen past := by
  obtain ⟨scope, -, held⟩ := Option.bind_eq_some_iff.mp found
  exact agrees.held scope name value held

theorem upholds_read (agrees : Chronicle.Agrees ⟨machine, past⟩) (reference : Reference) :
    (read reference).Upholds past machine fun _ value => value.Arisen past := by
  apply (upholds_get agrees).bind
  rintro _ _ _ ⟨rfl, rfl⟩
  apply upholds_orFail agrees
  intro value found
  split at found
  · exact arisen_of_lookupAt? agrees found
  · exact arisen_of_lookup? agrees found

theorem upholds_write (agrees : Chronicle.Agrees ⟨machine, past⟩) {reference : Reference}
    (ordinary : reference.name.IsOrdinary) {value : Value} (arisen : value.Arisen past) :
    (write reference value).Upholds past machine fun _ _ => True := by
  apply (upholds_get agrees).bind
  rintro _ _ _ ⟨rfl, rfl⟩
  have target : (orFail (target? reference machine) (.variableAt reference.name)).Upholds past
      machine fun middle _ => middle = machine :=
    upholds_orFail agrees fun _ _ => rfl
  apply target.bind
  rintro _ scope _ rfl
  exact ⟨agrees.define scope ordinary arisen, trivial⟩

/-! ### Functions and classes -/

theorem upholds_declare (agrees : Chronicle.Agrees ⟨machine, past⟩) (declaration : FunctionDecl)
    (isInitializer : Bool) :
    (Closure.declare declaration isInitializer).Upholds past machine fun _ closure =>
      closure.declaration = declaration ∧ closure.isInitializer = isInitializer :=
  ⟨agrees.of_same rfl rfl, rfl, rfl⟩

/-- A scope with one name in it. -/
theorem arisen_of_single {name other : String} {value found : Value} (arisen : value.Arisen past)
    (held : (Bindings.empty.set name value).get? other = some found) : found.Arisen past := by
  rw [Bindings.get?_set] at held
  split at held
  · cases held
    exact arisen
  · cases held

/-- A bound method is the method in a scope that holds the object. -/
theorem upholds_bindMethod (agrees : Chronicle.Agrees ⟨machine, past⟩) {method : Closure}
    (isMethod : method.IsMethod) {object : Instance} (arisen : (Value.object object).Arisen past) :
    (method.bind object).Upholds past machine fun after bound =>
      bound.declaration = method.declaration ∧ bound.IsBound after.store object := by
  apply (upholds_newScope agrees method.environment fun _ _ => arisen_of_single arisen).bind
  rintro opened _ agrees ⟨scope, rfl, inStore, contents⟩
  refine ⟨agrees.of_same rfl rfl, rfl, ⟨isMethod.placed, isMethod.initializes⟩, scope,
    method.environment, rfl, inStore, ?_⟩
  change (opened.store.scope scope).get? "this" = _
  rw [contents, Bindings.get?_set_self]

theorem upholds_superclassOf (agrees : Chronicle.Agrees ⟨machine, past⟩) (name : Token)
    (superclass : Expr) {value : Value} (arisen : value.Arisen past) :
    (superclassOf name superclass value).Upholds past machine fun _ found =>
      (Value.cls found).Arisen past := by
  cases value with
  | cls found => exact upholds_pure agrees arisen
  | _ => exact upholds_fail agrees

theorem upholds_methodEnvironment (agrees : Chronicle.Agrees ⟨machine, past⟩) (outer : Environment)
    {superclass : Option Class}
    (arisen : ∀ found, superclass = some found → (Value.cls found).Arisen past) :
    (methodEnvironment outer superclass).Upholds past machine fun _ _ => True := by
  cases superclass with
  | none => exact upholds_pure agrees trivial
  | some found =>
      exact ⟨agrees.addScope fun _ _ => arisen_of_single (arisen found rfl), trivial⟩

/-- Methods that are declared after some others have been. -/
theorem upholds_declareMethods (agrees : Chronicle.Agrees ⟨machine, past⟩)
    {methods : List FunctionDecl} (placed : ∀ method ∈ methods, method.Placed)
    {earlier : Bindings Closure}
    (members : ∀ name method, earlier.get? name = some method → method.IsMethod) :
    (declareMethods methods earlier).Upholds past machine fun _ declared =>
      (∀ name, (declared.get? name).map Closure.declaration =
        (FunctionDecl.lastNamed? methods name).or ((earlier.get? name).map Closure.declaration)) ∧
      ∀ name method, declared.get? name = some method → method.IsMethod := by
  induction methods generalizing machine earlier with
  | nil => exact upholds_pure agrees ⟨fun _ => rfl, members⟩
  | cons first rest ih =>
      have before (name : String) : FunctionDecl.lastNamed? (first :: rest) name =
          (FunctionDecl.lastNamed? rest name).or
            (if first.name.lexeme = name then some first else none) := by
        unfold FunctionDecl.lastNamed?
        rw [List.reverse_cons, List.find?_append, List.find?_singleton]
        simp
      apply (upholds_declare agrees first _).bind
      rintro middle method agrees ⟨declaration, initializes⟩
      have own : method.IsMethod :=
        ⟨declaration ▸ placed first (.head _), by rw [initializes, Closure.name, declaration]⟩
      have others : ∀ name other,
          (earlier.set first.name.lexeme method).get? name = some other → other.IsMethod := by
        intro name other found
        rw [Bindings.get?_set] at found
        split at found
        · cases found
          exact own
        · exact members name other found
      have behind := ih agrees (fun method later => placed method (.tail _ later)) others
      unfold Upholds at behind ⊢
      cases ran : declareMethods rest (earlier.set first.name.lexeme method) middle with
      | error halt after =>
          rw [ran] at behind
          exact behind
      | ok declared after =>
          rw [ran] at behind
          obtain ⟨agrees, declarations, all⟩ := behind
          refine ⟨agrees, fun name => ?_, all⟩
          rw [declarations, before, Option.or_assoc, Bindings.get?_set]
          by_cases same : first.name.lexeme = name
          · simp [same, declaration]
          · simp [same]

/-- A call of a bound initializer yields the object that it is bound to. -/
theorem upholds_result (agrees : Chronicle.Agrees ⟨machine, past⟩) (closure : Closure) {flow : Flow}
    (returned : ∀ value, flow = .returned value → value.Arisen past) :
    (closure.result flow).Upholds past machine fun _ value => value.Arisen past ∧
      ∀ object, .bound closure object ∈ past → closure.name = Class.initializerName →
        value = .object object := by
  unfold Closure.result
  by_cases initializes : closure.isInitializer = true
  · rw [if_pos initializes]
    apply (upholds_get agrees).bind
    rintro _ _ _ ⟨rfl, rfl⟩
    apply upholds_orFail agrees
    intro value found
    refine ⟨arisen_of_lookupAt? agrees found, fun object bound named => ?_⟩
    obtain ⟨⟨-, scope, outer, around, -, held⟩, -⟩ := agrees.holds _ bound
    rw [around] at found
    change (machine.store.scope scope).get? "this" = some value at found
    rw [held] at found
    exact (Option.some.inj found).symm
  · rw [if_neg initializes]
    have plain : ∀ object, .bound closure object ∈ past →
        closure.name ≠ Class.initializerName := by
      intro object bound named
      obtain ⟨⟨method, -⟩, -⟩ := agrees.holds _ bound
      exact initializes (method.initializes.trans (decide_eq_true named))
    cases flow with
    | normal =>
        exact upholds_pure agrees ⟨trivial, fun object bound named =>
          absurd named (plain object bound)⟩
    | returned value =>
        exact upholds_pure agrees ⟨returned value rfl, fun object bound named =>
          absurd named (plain object bound)⟩

end Run

end Lox
