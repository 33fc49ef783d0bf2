import Lox.Proofs.Session.Chronicle

/-!
# Properties and what was stored in them

What is found in a property at any moment of a session follows from what has happened
before. The value stored there last is found as it was stored, whichever expression gave
the object at that time. Where nothing has been stored the method of the nearest class
that declares one is found. So nothing but stores into that very property makes a
difference.
-/

namespace Lox

/-- What can be found in a property: a value that was stored, a method, or nothing. -/
inductive Answer where
  | stored (value : Value)
  | method (method : Closure)
  | missing

/-- Give an answer to a request for a property. Only a method is bound to the object. -/
def Answer.give (answer : Answer) (object : Instance) (name : Token) : Run Value :=
  match answer with
  | .stored value => return value
  | .method found => return .function (← found.bind object)
  | .missing => Run.fail (.propertyAt name)

/-- The answer that the past has for a property. -/
def Instance.answer (object : Instance) (past : List Occurrence) (name : String) : Answer :=
  match Occurrence.lastStored past object.reference name with
  | some value => .stored value
  | none =>
      match object.cls.method? name with
      | some method => .method method
      | none => .missing

variable {machine : Machine} {past : List Occurrence}

/-- A machine that agrees with the past gives the answer of the past. -/
theorem Chronicle.Agrees.property_eq (agrees : Chronicle.Agrees ⟨machine, past⟩)
    (object : Instance) (name : Token) :
    object.property name machine =
      (object.answer past name.lexeme).give object name machine := by
  have field := agrees.fields object.reference name.lexeme
  unfold Instance.answer
  cases last : Occurrence.lastStored past object.reference name.lexeme with
  | some value => exact Instance.property_of_set (field.trans last)
  | none =>
      rw [Instance.property_of_unset (field.trans last)]
      cases object.cls.method? name.lexeme <;> rfl

/-- The answer stays until something is stored in that property. -/
theorem Instance.answer_append {object : Instance} {later : List Occurrence} {name : String}
    (silent : Occurrence.lastStored later object.reference name = none) :
    object.answer (past ++ later) name = object.answer past name := by
  unfold answer
  rw [Occurrence.lastStored_append, silent, Option.none_or]

namespace Session

/-- At any moment of a session, whatever it has been asked, a property is what the past
makes it. The method of a class is the last declaration of its name in the nearest body
that has one, among the bodies which the class and those it inherits from come from. At a
later moment the same is found, unless something has been stored in that property in
between. -/
theorem properties_follow_history (time : Native → Nat → Except String Float)
    (policy : SinkPolicy) (requests : List Request) {past future : List Occurrence}
    {machine : Machine}
    (moment : ((Chronicled.start (Host.ofTime time) policy).reach requests).chronicle.history =
      past ++ .moment machine :: future) :
    ((Chronicled.start (Host.ofTime time) policy).reach requests).forget =
        (Session.start (Host.ofTime time) policy).reach requests ∧
      (∀ value, machine.Holds value → value.Arisen past) ∧
      ∀ object, .created object ∈ past →
        (∃ bodies, object.cls.ComesFrom past bodies ∧ ∀ name,
          (object.cls.method? name).map Closure.declaration =
            bodies.findSome? fun body => FunctionDecl.lastNamed? body name) ∧
        ∀ name : Token,
          object.property name machine =
            (object.answer past name.lexeme).give object name machine ∧
          ∀ between later rest, future = between ++ .moment later :: rest →
            Occurrence.lastStored between object.reference name.lexeme = none →
            object.property name later =
              (object.answer past name.lexeme).give object name later := by
  have sound := Chronicled.sound_reach time policy requests
  have present := (sound.at moment).present
  refine ⟨Chronicled.forget_reach _ requests, fun value => present.arisen_of_holds,
    fun object created => ⟨?_, fun name => ⟨present.property_eq object name, ?_⟩⟩⟩
  · obtain ⟨bodies, comesFrom, methods, -⟩ := present.comesFrom (present.holds _ created).2
    exact ⟨bodies, comesFrom, methods⟩
  · rintro between later rest rfl silent
    -- The history is cut at the later moment, and what is behind it plays no part.
    have split : past ++ .moment machine :: (between ++ .moment later :: rest) =
        (past ++ ([.moment machine] ++ between)) ++ .moment later :: rest := by simp
    have agrees := (sound.at (moment.trans split)).present
    rw [agrees.property_eq object name, Instance.answer_append]
    rw [Occurrence.lastStored_append, silent]
    rfl

/-- A session in which something is stored through one of two variables that hold the
same object, where its class has a method. -/
def Chronicled.aliased : Chronicled :=
  (start (Host.ofTime fun _ _ => .error "no time") .unlimited).reach
    [.run 20 "class A { m() {} } var a = A(); var b = a; b.m = nil;"]

theorem stored_aliased :
    (match (Chronicled.aliased.chronicle.machine.store.scope globalScope).get? "a" with
      | some (.object object) =>
          (Occurrence.lastStored Chronicled.aliased.chronicle.past object.reference "m").isSome
      | _ => false) = true := by
  decide +kernel

/-- What was stored is found through the other variable. -/
theorem properties_follow_history_alias : ∃ object value,
    (Chronicled.aliased.chronicle.machine.store.scope globalScope).get? "a" =
      some (.object object) ∧
    Occurrence.lastStored Chronicled.aliased.chronicle.past object.reference "m" = some value ∧
    object.property ⟨.identifier, "m", 1⟩ Chronicled.aliased.chronicle.machine =
      .ok value Chronicled.aliased.chronicle.machine := by
  have stored := stored_aliased
  obtain ⟨-, held, properties⟩ := properties_follow_history (fun _ _ => .error "no time")
    .unlimited [.run 20 "class A { m() {} } var a = A(); var b = a; b.m = nil;"]
    (Chronicle.history_eq Chronicled.aliased.chronicle)
  split at stored
  · next object found =>
      obtain ⟨value, last⟩ := Option.isSome_iff_exists.mp stored
      have created := held _ (.inl ⟨globalScope, "a", found⟩)
      obtain ⟨-, answers⟩ := properties object created
      obtain ⟨given, -⟩ := answers ⟨.identifier, "m", 1⟩
      refine ⟨object, value, found, last, given.trans ?_⟩
      unfold Instance.answer
      rw [last]
      rfl
  · cases stored

end Session

end Lox
