import Lox.Proofs.Expansion.Steps

/-!
# Functions and classes in expanded programs

A function of an expanded program has kept an environment with more scopes in it, and in
its body loops are expanded. What is made of such functions without running them is the
same in both programs: closures, methods, classes and the properties of objects.
-/

namespace Lox

open Run

variable {short : Shortage} {expansion : Expansion} {layout : Padding.Layout} {padding : Padding}

/-! ## Functions -/

theorem matches_declare {enter : Padding → Padding} {declaration declaration' : FunctionDecl}
    {isInitializer : Bool}
    (expands : declaration.Expands expansion.rule (enter padding) declaration')
    (receives : isInitializer = true → (enter padding).Adjoins 0) :
    Matches short expansion layout padding (Closure.declare declaration isInitializer)
      (Closure.declare declaration' isInitializer) (Closure.Expands expansion enter) := by
  apply matches_newIdentity.bind
  rintro grown identity _ grows rfl
  apply matches_get.bind
  intro further machine machine' later machines
  exact matches_pure ⟨rfl, rfl, padding, machines.around, expands, receives⟩

/-- Binding a method to an object opens the scope for `this`. -/
theorem matches_bindMethod {method method' : Closure} {object object' : Instance}
    (same : (expansion.kinship layout).method method method')
    (objects : object.Akin (expansion.kinship layout) object') :
    Matches short expansion layout padding (method.bind object) (method'.bind object')
      (Closure.Expands expansion id) := by
  obtain ⟨inside, around, expands, receives⟩ := same.declared
  have receiver : (Bindings.empty.set "this" (Value.object object)).Paired Eq
      (expansion.Values layout) (Bindings.empty.set "this" (.object object')) :=
    Bindings.paired_empty.set Bindings.oneToOne_eq rfl (.object objects)
  apply (matches_newScope around receiver).bind
  intro grown environment environment' grows entered
  apply matches_newIdentity.bind
  rintro further identity _ later rfl
  exact matches_pure
    ⟨rfl, same.isInitializer, 0 :: inside, entered.grow later, expands, receives⟩

theorem matches_result {closure closure' : Closure} {flow flow' : Flow}
    (same : (expansion.kinship layout).function closure closure')
    (flows : flow.Akin (expansion.kinship layout) flow') :
    Matches short expansion layout padding (closure.result flow) (closure'.result flow')
      expansion.Values := by
  obtain ⟨inside, around, expands, receives⟩ := same.declared
  unfold Closure.result
  rw [same.isInitializer, expands.name]
  split
  · next initializes =>
      apply matches_get.bind
      intro grown machine machine' grows machines
      apply matches_orFail
      have found := machines.store.lookupAt? (around.grow grows) 0 "this"
      have near : inside.shift 0 = 0 := receives initializes
      rwa [near] at found
  · cases flows with
    | normal => exact matches_pure .nil
    | returned held => exact matches_pure held

/-! ## Properties -/

/-- Binding a method that is looked up, if there is one. -/
theorem matches_foundMethod {found found' : Option Closure} {object object' : Instance}
    {fault : RuntimeFault} (same : Option.Rel (expansion.kinship layout).method found found')
    (objects : object.Akin (expansion.kinship layout) object') :
    Matches short expansion layout padding
      (do
        let method ← orFail found fault
        return Value.function (← method.bind object))
      (do
        let method ← orFail found' fault
        return Value.function (← method.bind object'))
      expansion.Values := by
  have methods : Matches short expansion layout padding (orFail found fault) (orFail found' fault)
      fun grown => (expansion.kinship grown).method := matches_orFail same
  apply methods.bind
  intro grown method method' grows methods
  have objects := objects.widen (expansion.within_kinship grows)
  exact (matches_bindMethod methods objects).bind fun _ bound => matches_pure (.function bound)

theorem matches_property {object object' : Instance} (name : Token)
    (objects : object.Akin (expansion.kinship layout) object') :
    Matches short expansion layout padding (object.property name) (object'.property name)
      expansion.Values := by
  apply matches_get.bind
  intro grown machine machine' grows machines
  have objects := objects.widen (expansion.within_kinship grows)
  have found := (machines.store.held object'.reference).get? (rfl : name.lexeme = name.lexeme)
  rw [objects.reference]
  generalize (machine.store.fieldsOf object'.reference).get? name.lexeme = held,
    (machine'.store.fieldsOf object'.reference).get? name.lexeme = held' at found
  cases found with
  | some same => exact matches_pure same
  | none => exact matches_foundMethod (objects.cls.method? name.lexeme) objects

theorem matches_setProperty {object object' : Instance} {value value' : Value} (name : Token)
    (objects : object.Akin (expansion.kinship layout) object')
    (same : expansion.Values layout value value') :
    Matches short expansion layout padding (object.setProperty name value)
      (object'.setProperty name value') fun _ _ _ => True := by
  unfold Instance.setProperty
  rw [objects.reference]
  exact matches_modifyStore fun stores => stores.setField _ _ same

/-- The scope for `this` is next to that for `super` in both programs. -/
theorem matches_superMethod {reference : Reference} (method : Token)
    (suits : expansion.Suits padding (.super reference method)) :
    Matches short expansion layout padding (superMethod reference method)
      (superMethod reference method) expansion.Values := by
  obtain ⟨shifts, adjoins⟩ := suits
  apply matches_get.bind
  intro grown machine machine' grows machines
  rw [machines.plain, machines.expanded, shifts]
  have absent : Matches short expansion grown padding (fail (.variableAt reference.name))
      (fail (.variableAt reference.name)) expansion.Values := matches_fail _
  have unbound : Matches short expansion grown padding
      (fail (.undefinedVariable "this" reference.name.line))
      (fail (.undefinedVariable "this" reference.name.line)) expansion.Values := matches_fail _
  cases noted : expansion.plain.get? reference.id with
  | none => exact absent
  | some distance =>
      have near := adjoins distance noted
      have above := machines.store.lookupAt? machines.around distance "super"
      simp only [Option.map_some, orFail, pure_bind]
      generalize machine.environment.lookupAt? machine.store distance "super" = superclass,
        machine'.environment.lookupAt? machine'.store (padding.shift distance) "super" = superclass'
        at above
      cases above with
      | none => exact absent
      | some same =>
          cases same with
          | cls classes =>
              cases distance with
              | zero =>
                  rw [near]
                  exact unbound
              | succ distance =>
                  rw [near]
                  have here := machines.store.lookupAt? machines.around distance "this"
                  dsimp only
                  generalize machine.environment.lookupAt? machine.store distance "this" = receiver,
                    machine'.environment.lookupAt? machine'.store (padding.shift distance) "this" =
                      receiver' at here
                  cases here with
                  | none => exact unbound
                  | some same =>
                      cases same with
                      | object objects =>
                          exact matches_foundMethod (classes.method? method.lexeme) objects
                      | _ => exact unbound
          | _ => exact absent

/-! ## Classes -/

theorem matches_superclassOf {value value' : Value} (name : Token) (superclass : Expr)
    (same : expansion.Values layout value value') :
    Matches short expansion layout padding (superclassOf name superclass value)
      (superclassOf name superclass value') fun grown => Class.Akin (expansion.kinship grown) := by
  cases same with
  | cls classes => exact matches_pure classes
  | _ => exact matches_fail _

theorem matches_declareMethods {methods methods' : List FunctionDecl}
    (expands : FunctionDecl.ListExpands expansion.rule (0 :: padding) methods methods')
    {before before' : Bindings Closure}
    (known : before.Paired Eq (expansion.kinship layout).method before') :
    Matches short expansion layout padding (declareMethods methods before)
      (declareMethods methods' before')
      fun grown => Bindings.Paired Eq (expansion.kinship grown).method := by
  induction methods generalizing layout methods' before before' with
  | nil =>
      cases expands
      exact matches_pure known
  | cons first rest ih =>
      cases expands with
      | cons head tail =>
          unfold declareMethods
          rw [head.name]
          have declares := @matches_declare short expansion layout padding (0 :: ·) _ _
            (first.name.lexeme = Class.initializerName) head fun _ => rfl
          apply declares.bind
          intro grown closure closure' grows closures
          have known := known.imp (expansion.within_kinship grows).method
          exact ih tail (known.set Bindings.oneToOne_eq rfl closures)

/-- The scopes around the declarations of methods. -/
def Padding.inherit {α : Type} (superclass : Option α) (padding : Padding) : Padding :=
  match superclass with
  | none => padding
  | some _ => 0 :: padding

/-- Methods are declared where there is a scope for `super` if the class inherits. -/
theorem matches_methodEnvironment {outer outer' : Environment} {inside : Padding}
    (around : layout.Around inside outer outer') {superclass superclass' : Option Class}
    (above : Option.Rel (Class.Akin (expansion.kinship layout)) superclass superclass') :
    Matches short expansion layout padding (methodEnvironment outer superclass)
      (methodEnvironment outer' superclass')
      fun grown => grown.Around (inside.inherit superclass) := by
  cases above with
  | none => exact matches_pure around
  | some same =>
      exact matches_newScope around
        (Bindings.paired_empty.set Bindings.oneToOne_eq rfl (.cls same))

theorem matches_declareClass (level : expansion.rule.declaration padding) (name : Token)
    {superclass superclass' : Option Class} {methods methods' : List FunctionDecl}
    (above : Option.Rel (Class.Akin (expansion.kinship layout)) superclass superclass')
    (expands : FunctionDecl.ListExpands expansion.rule (0 :: padding.inherit superclass) methods
      methods') :
    Matches short expansion layout padding (declareClass name superclass methods)
      (declareClass name superclass' methods') fun _ _ _ => True := by
  have widened {grown : Padding.Layout} (grows : layout <+: grown) :
      Option.Rel (Class.Akin (expansion.kinship grown)) superclass superclass' := by
    cases above with
    | none => exact .none
    | some same => exact .some (same.widen (expansion.within_kinship grows))
  apply (matches_define level name.lexeme .nil).bind
  intro first _ _ grows _
  apply matches_get.bind
  intro second machine machine' grown machines
  apply (matches_methodEnvironment machines.around (widened (grows.trans grown))).bind
  intro third inner inner' more around
  apply (matches_within around (matches_declareMethods expands Bindings.paired_empty)).bind
  intro fourth closures closures' later known
  apply matches_newIdentity.bind
  rintro fifth identity _ last rfl
  have known := known.imp (expansion.within_kinship last).method
  have prior := widened (grows.trans (grown.trans (more.trans (later.trans last))))
  exact matches_define level _ (.cls (Class.akin_extend ⟨rfl, rfl, known⟩ prior))

/-! ## Arguments -/

theorem parameterBindings_expands {closure closure' : Closure} {arguments arguments' : List Value}
    (same : closure'.declaration.parameters = closure.declaration.parameters)
    (values : List.Forall₂ (expansion.Values layout) arguments arguments') :
    (closure.parameterBindings arguments).Paired Eq (expansion.Values layout)
      (closure'.parameterBindings arguments') := by
  have bound {parameters : List Token} {bindings bindings' : Bindings Value}
      (before : bindings.Paired Eq (expansion.Values layout) bindings') :
      ((parameters.zip arguments).foldl
          (fun bindings entry => bindings.set entry.1.lexeme entry.2) bindings).Paired Eq
        (expansion.Values layout)
        ((parameters.zip arguments').foldl
          (fun bindings entry => bindings.set entry.1.lexeme entry.2) bindings') := by
    induction parameters generalizing arguments arguments' bindings bindings' with
    | nil => exact before
    | cons first _ ih =>
        cases values with
        | nil => exact before
        | cons held rest => exact ih rest (before.set Bindings.oneToOne_eq rfl held)
  unfold Closure.parameterBindings
  rw [same]
  exact bound Bindings.paired_empty

end Lox
