import Lox.Evaluation.Evaluate
import Lox.Proofs.Reach.Territory

/-!
# Runs stay inside

Every step of a run that starts inside of a territory ends inside of it, whether
it succeeds or halts, and its result refers to nothing outside. What there is of
new scopes and instances is part of the territory from the start.
-/

namespace Lox

variable {territory grown : Territory} {before middle after : Machine}

/-- A step that stays inside of a territory, and what its result is like. -/
def Run.Stays {α : Type} (step : Run α) (territory : Territory) (before : Machine)
    (result : Territory → Store → α → Prop) : Prop :=
  match step before with
  | .ok value after =>
      ∃ grown, before.Onward territory grown after ∧ result grown after.store value
  | .error _ after => ∃ grown, before.Onward territory grown after

/-- A result that refers to nothing outside. -/
def Territory.Yields {α : Type} (parts : α → Part → Prop) (territory : Territory) (store : Store)
    (value : α) : Prop :=
  territory.Holds store (parts value)

namespace Run

variable {α β : Type} {result : Territory → Store → α → Prop}

/-! ## Steps put together -/

theorem stays_pure {value : α} (confined : before.Confined territory)
    (holds : result territory before.store value) :
    (pure value : Run α).Stays territory before result :=
  ⟨territory, confined.onward, holds⟩

theorem stays_throw {halt : Halt} (confined : before.Confined territory) :
    (throw halt : Run α).Stays territory before result :=
  ⟨territory, confined.onward⟩

/-- Looking at the machine changes nothing. -/
theorem stays_look {next : Machine → Run α} (rest : (next before).Stays territory before result) :
    (get >>= next).Stays territory before result :=
  rest

/-- One step after another. The second starts further on. -/
theorem Stays.bind {step : Run α} {next : α → Run β} {final : Territory → Store → β → Prop}
    (front : step.Stays territory before result)
    (back : ∀ grown middle value, before.Onward territory grown middle →
      result grown middle.store value → (next value).Stays grown middle final) :
    (step >>= next).Stays territory before final := by
  change Run.Stays (EStateM.bind step next) territory before final
  unfold Stays EStateM.bind at *
  cases ran : step before with
  | error halt middle =>
      rw [ran] at front
      exact front
  | ok value middle =>
      rw [ran] at front
      obtain ⟨grown, onward, holds⟩ := front
      have rest := back grown middle value onward holds
      simp only
      cases ranNext : next value middle with
      | error halt after =>
          rw [ranNext] at rest
          obtain ⟨later, farther⟩ := rest
          exact ⟨later, onward.trans farther⟩
      | ok value after =>
          rw [ranNext] at rest
          obtain ⟨later, farther, final⟩ := rest
          exact ⟨later, onward.trans farther, final⟩

theorem Stays.imp {step : Run α} {weaker : Territory → Store → α → Prop}
    (stays : step.Stays territory before result)
    (weaken : ∀ grown store value, result grown store value → weaker grown store value) :
    step.Stays territory before weaker := by
  unfold Stays at *
  cases ran : step before with
  | error halt after =>
      rw [ran] at stays
      exact stays
  | ok value after =>
      rw [ran] at stays
      obtain ⟨grown, onward, holds⟩ := stays
      exact ⟨grown, onward, weaken _ _ _ holds⟩

theorem stays_orFail {found : Option α} {fault : RuntimeFault}
    (confined : before.Confined territory)
    (holds : ∀ value, found = some value → result territory before.store value) :
    (orFail found fault).Stays territory before result := by
  cases found with
  | none => exact stays_throw confined
  | some value => exact stays_pure confined (holds value rfl)

/-- A step inside of another environment comes back from it. -/
theorem stays_within {environment : Environment} {step : Run α}
    (confined : before.Confined territory)
    (stays : step.Stays territory { before with environment := environment } result) :
    (within environment step).Stays territory before result := by
  unfold Stays within at *
  have leave (grown : Territory) (after : Machine)
      (onward : Machine.Onward { before with environment := environment } territory grown after) :
      before.Onward territory grown { after with environment := before.environment } :=
    ⟨onward.confined.enter (confined.around.grow onward.grows), onward.grows, rfl⟩
  cases ran : step { before with environment := environment } with
  | error halt after =>
      rw [ran] at stays
      obtain ⟨grown, onward⟩ := stays
      exact ⟨grown, leave grown after onward⟩
  | ok value after =>
      rw [ran] at stays
      obtain ⟨grown, onward, holds⟩ := stays
      exact ⟨grown, leave grown after onward, holds⟩

/-! ## Counters, the sink and the host -/

theorem stays_newIdentity (confined : before.Confined territory) :
    newIdentity.Stays territory before fun _ _ _ => True :=
  ⟨territory, confined.of_eq rfl rfl rfl, trivial⟩

theorem stays_print (confined : before.Confined territory) (value : Value) :
    (print value).Stays territory before fun _ _ _ => True := by
  unfold Stays print
  cases before.sink.writeAll (value.pieces ++ ["\n"]) with
  | mk refusal sink =>
      cases refusal with
      | none => exact ⟨territory, confined.of_eq rfl rfl rfl, trivial⟩
      | some reason => exact ⟨territory, confined.of_eq rfl rfl rfl⟩

theorem stays_flush (confined : before.Confined territory) :
    flush.Stays territory before fun _ _ _ => True := by
  apply stays_look
  split
  · exact stays_pure confined trivial
  · exact stays_throw confined

/-- A host hands out what it is given, and that is allowed. -/
theorem stays_callHost (confined : before.Confined territory) (function : Native)
    {arguments : List Value} (line : Nat)
    (given : ∀ argument ∈ arguments, territory.Holds before.store argument.Has) :
    (callHost function arguments line).Stays territory before (Territory.Yields Value.Has) := by
  have counted : (set { before with hostCalls := before.hostCalls + 1 } : Run PUnit).Stays
      territory before fun grown store _ => grown = territory ∧ store = before.store :=
    ⟨territory, confined.of_eq rfl rfl rfl, rfl, rfl⟩
  apply stays_look
  apply counted.bind
  rintro _ middle _ onward ⟨rfl, same⟩
  cases answer : before.host function before.hostCalls arguments with
  | error message => exact stays_throw onward.confined
  | ok value =>
      apply stays_pure onward.confined
      intro part has
      obtain ⟨argument, member, given'⟩ := confined.host _ _ _ _ answer part has
      rw [same]
      exact given argument member part given'

theorem stays_ofOperator (confined : before.Confined territory) (operator : Token)
    {outcome : Except TypeFault Value} (plain : ∀ value, outcome = .ok value → value.IsPlain) :
    (ofOperator operator outcome).Stays territory before (Territory.Yields Value.Has) := by
  cases outcome with
  | error fault => exact stays_throw confined
  | ok value => exact stays_pure confined (Territory.holds_of_isPlain (plain value rfl))

/-! ## The store -/

/-- A value bound in a scope inside stays inside. -/
theorem onward_define (confined : before.Confined territory) {reference : ScopeRef}
    (covers : territory.covers (.scope reference)) (name : String) {value : Value}
    (holds : territory.Holds before.store value.Has) :
    before.Onward territory territory
      { before with store := before.store.define reference name value } := by
  have grows : territory.Grows before.store territory
      (before.store.define reference name value) := by
    refine ⟨rfl, by simp, fun _ _ => rfl, fun _ _ => rfl, ?_⟩
    intro location outside
    rw [Store.contents_define, if_neg]
    rintro ⟨rfl, -⟩
    exact outside covers
  apply confined.change grows
  intro location other found held
  rw [Store.contents_define] at held
  split at held
  · rw [Bindings.get?_set] at held
    split at held
    · cases held
      exact .inr (holds.grow grows)
    · exact .inl held
  · exact .inl held

theorem onward_setField (confined : before.Confined territory) {reference : InstanceRef}
    (covers : territory.covers (.object reference)) (name : String) {value : Value}
    (holds : territory.Holds before.store value.Has) :
    before.Onward territory territory
      { before with store := before.store.setField reference name value } := by
  have grows : territory.Grows before.store territory
      (before.store.setField reference name value) := by
    refine ⟨rfl, by simp, fun _ _ => rfl, fun _ _ => rfl, ?_⟩
    intro location outside
    rw [Store.contents_setField, if_neg]
    rintro ⟨rfl, -⟩
    exact outside covers
  apply confined.change grows
  intro location other found held
  rw [Store.contents_setField] at held
  split at held
  · rw [Bindings.get?_set] at held
    split at held
    · cases held
      exact .inr (holds.grow grows)
    · exact .inl held
  · exact .inl held

theorem stays_setProperty (confined : before.Confined territory) {object : Instance}
    (covers : territory.covers (.object object.reference)) (name : Token) {value : Value}
    (holds : territory.Holds before.store value.Has) :
    (object.setProperty name value).Stays territory before fun _ _ _ => True :=
  ⟨territory, onward_setField confined covers name.lexeme holds, trivial⟩

theorem stays_define (confined : before.Confined territory) (name : String) {value : Value}
    (holds : territory.Holds before.store value.Has) :
    (define name value).Stays territory before fun _ _ _ => True := by
  have inside := confined.environment
  have defined (reference : ScopeRef) (covers : territory.covers (.scope reference)) :=
    onward_define confined covers name holds
  obtain ⟨store, environment, distances, nextIdentity, hostCalls, sink, host⟩ := before
  cases environment with
  | nil => exact ⟨territory, confined.onward, trivial⟩
  | cons reference outer =>
      exact ⟨territory, defined reference (inside reference List.mem_cons_self), trivial⟩

/-- A new scope is inside and so is what is around it. -/
theorem stays_newScope (confined : before.Confined territory) {outer : Environment}
    {bindings : Bindings Value} (around : territory.Allows before.store (.environment outer))
    (holds : ∀ name value, bindings.get? name = some value →
      territory.Holds before.store value.Has) :
    (newScope outer bindings).Stays territory before fun grown store inner =>
      grown.Allows store (.environment inner) := by
  have grows := territory.grows_addScope before.store outer bindings
    (confined.fresh _ (Nat.lt_irrefl _))
  have onward : before.Onward territory (territory.withScope before.store outer)
      { before with store := (before.store.addScope bindings).2 } := by
    apply confined.change grows
    intro location name value held
    rw [Store.contents_addScope] at held
    split at held
    · exact .inr ((holds name value held).grow grows)
    · exact .inl held
  have farther := around.grow grows
  refine ⟨_, onward, ⟨⟨Function.update_self .., farther.fits.1⟩, ?_⟩, ?_⟩
  · intro reference member
    obtain rfl | member := List.mem_cons.mp member
    · exact Store.has_added before.store bindings
    · exact farther.fits.2 reference member
  · intro location mentions
    cases location with
    | object reference => exact mentions.elim
    | scope reference =>
        obtain rfl | member := List.mem_cons.mp mentions
        · exact confined.fresh _ (Nat.lt_irrefl _)
        · exact around.inside (.scope reference) member

/-- A new instance is inside. -/
theorem stays_newInstance (confined : before.Confined territory) {cls : Class}
    (holds : territory.Holds before.store cls.Has) :
    (newInstance cls).Stays territory before fun grown store object =>
      object.cls = cls ∧ grown.Holds store (Value.object object).Has := by
  have grows := territory.grows_addInstance before.store cls (confined.fresh _ (Nat.lt_irrefl _))
  have onward : before.Onward territory (territory.withInstance before.store cls)
      { before with store := before.store.addInstance.2 } := by
    apply confined.change grows
    intro location name value held
    rw [Store.contents_addInstance] at held
    split at held
    · nomatch held
    · exact .inl held
  refine ⟨_, onward, rfl, ?_⟩
  rintro part (rfl | has)
  · refine ⟨⟨Function.update_self .., Store.has_addedInstance before.store⟩, ?_⟩
    intro location mentions
    cases location with
    | scope reference => exact mentions.elim
    | object reference =>
        obtain rfl := mentions
        exact confined.fresh _ (Nat.lt_irrefl _)
  · exact (holds part has).grow grows

/-! ## Names -/

/-- What is found in a scope inside is allowed. -/
theorem holds_lookupAt (confined : before.Confined territory) {distance : Nat} {name : String}
    {value : Value} {environment : Environment}
    (around : territory.Allows before.store (.environment environment))
    (found : environment.lookupAt? before.store distance name = some value) :
    territory.Holds before.store value.Has := by
  obtain ⟨reference, at_, held⟩ := Option.bind_eq_some_iff.mp found
  exact confined.held (around.inside (.scope reference) (List.mem_of_getElem? at_)) held

theorem stays_read (confined : before.Confined territory) (reference : Reference) :
    (read reference).Stays territory before (Territory.Yields Value.Has) := by
  apply stays_look
  apply stays_orFail confined
  intro value found
  split at found
  · exact holds_lookupAt confined confined.around found
  · obtain ⟨scope, member, held⟩ := List.exists_of_findSome?_eq_some found
    obtain rfl := List.mem_singleton.mp member
    exact confined.held confined.globals held

theorem covers_target (confined : before.Confined territory) {reference : Reference}
    {scope : ScopeRef} (found : target? reference before = some scope) :
    territory.covers (.scope scope) := by
  unfold target? at found
  split at found
  · exact confined.environment scope (List.mem_of_getElem? found)
  · obtain rfl := List.mem_singleton.mp (List.mem_of_find?_eq_some found)
    exact confined.globals

theorem stays_write (confined : before.Confined territory) (reference : Reference)
    {value : Value} (holds : territory.Holds before.store value.Has) :
    (write reference value).Stays territory before fun _ _ _ => True := by
  apply stays_look
  unfold orFail
  cases found : target? reference before with
  | none => exact stays_throw confined
  | some scope =>
      exact ⟨territory, onward_define confined (covers_target confined found) _ holds, trivial⟩

end Run

end Lox
