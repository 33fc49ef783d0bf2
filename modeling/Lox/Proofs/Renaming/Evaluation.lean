import Lox.Proofs.Renaming.Steps

/-!
# Renamed programs run alike

A renamed program does on its machine what the program does on the other one. Wherever
the name changes, it changes in the scope of the store too, and a use finds there what
it found before.
-/

namespace Lox

open Run

variable {respelling : Respelling} {layout : Layout} {marks : Marks}

/-! ## Functions -/

theorem mirrors_declare {enter : Marks → Marks} {declaration declaration' : FunctionDecl}
    (isInitializer : Bool)
    (renames : declaration.Renames respelling respelling.apart (enter marks) declaration') :
    Mirrors respelling layout marks (Closure.declare declaration isInitializer)
      (Closure.declare declaration' isInitializer) (Closure.Respelled respelling enter) := by
  apply mirrors_newIdentity.bind
  rintro grown identity _ grows rfl
  apply mirrors_get.bind
  intro further machine machine' later machines
  exact mirrors_pure ⟨rfl, machines.environment, rfl, marks, machines.around, renames⟩

section Keywords

variable (old : IsOrdinaryName respelling.old) (new : IsOrdinaryName respelling.new)
include old new

theorem names_this (mark : Bool) : respelling.Names mark "this" "this" :=
  Respelling.names_self mark old.1.symm new.1.symm

theorem names_super (mark : Bool) : respelling.Names mark "super" "super" :=
  Respelling.names_self mark old.2.symm new.2.symm

/-- Binding a method to an object opens the scope for `this`. -/
theorem mirrors_bindMethod {method method' : Closure} {object object' : Instance}
    (same : (respelling.kinship layout).method method method')
    (objects : object.Akin (respelling.kinship layout) object') :
    Mirrors respelling layout marks (method.bind object) (method'.bind object')
      (Closure.Respelled respelling id) := by
  obtain ⟨inside, around, renames⟩ := same.declared
  have receiver : (Bindings.empty.set "this" (Value.object object)).Paired
      (respelling.Names false) (respelling.Values layout)
      (Bindings.empty.set "this" (.object object')) :=
    Bindings.paired_empty.set (respelling.oneToOne_names false) (names_this old new false)
      (.object objects)
  unfold Closure.bind
  rw [same.environment]
  apply (mirrors_newScope false around receiver).bind
  rintro grown environment _ grows ⟨rfl, entered⟩
  apply mirrors_newIdentity.bind
  rintro further identity _ later rfl
  exact mirrors_pure ⟨rfl, rfl, same.isInitializer, false :: inside, entered.grow later, renames⟩

theorem mirrors_result {closure closure' : Closure} {flow flow' : Flow}
    (same : (respelling.kinship layout).function closure closure')
    (flows : flow.Akin (respelling.kinship layout) flow') :
    Mirrors respelling layout marks (closure.result flow) (closure'.result flow')
      respelling.Values := by
  obtain ⟨_, _, renames⟩ := same.declared
  unfold Closure.result
  rw [same.isInitializer, same.environment, renames.name]
  split
  · apply mirrors_get.bind
    intro grown machine machine' grows machines
    exact mirrors_orFail (machines.store.lookupAt? _ _ fun _ _ => names_this old new _) (.same _)
  · cases flows with
    | normal => exact mirrors_pure .nil
    | returned held => exact mirrors_pure held

/-! ## Properties -/

/-- Binding a method that is looked up, if there is one. -/
theorem mirrors_foundMethod {found found' : Option Closure} {object object' : Instance}
    {fault : RuntimeFault} (same : Option.Rel (respelling.kinship layout).method found found')
    (objects : object.Akin (respelling.kinship layout) object') :
    Mirrors respelling layout marks
      (do
        let method ← orFail found fault
        return Value.function (← method.bind object))
      (do
        let method ← orFail found' fault
        return Value.function (← method.bind object'))
      respelling.Values := by
  have methods : Mirrors respelling layout marks (orFail found fault) (orFail found' fault)
      fun grown => (respelling.kinship grown).method := mirrors_orFail same (.same _)
  apply methods.bind
  intro grown method method' grows methods
  have objects := objects.widen (respelling.within_kinship grows)
  exact (mirrors_bindMethod old new methods objects).bind fun _ bound =>
    mirrors_pure (.function bound)

theorem mirrors_property {object object' : Instance} (name : Token)
    (objects : object.Akin (respelling.kinship layout) object') :
    Mirrors respelling layout marks (object.property name) (object'.property name)
      respelling.Values := by
  apply mirrors_get.bind
  intro grown machine machine' grows machines
  have objects := objects.widen (respelling.within_kinship grows)
  have found := (machines.store.held object'.reference).get? (rfl : name.lexeme = name.lexeme)
  rw [objects.reference]
  generalize (machine.store.fieldsOf object'.reference).get? name.lexeme = held,
    (machine'.store.fieldsOf object'.reference).get? name.lexeme = held' at found
  cases found with
  | some same => exact mirrors_pure same
  | none =>
      exact mirrors_foundMethod old new (objects.cls.method? name.lexeme) objects

theorem mirrors_superMethod (reference : Reference) (method : Token) :
    Mirrors respelling layout marks (superMethod reference method) (superMethod reference method)
      respelling.Values := by
  apply mirrors_get.bind
  intro grown machine machine' grows machines
  rw [machines.distances, machines.environment]
  refine Mirrors.bind (?_ : Mirrors respelling grown marks _ _ fun _ => Eq) ?_
  · apply mirrors_orFail _ (.same _)
    cases machine.distances.get? reference.id with
    | none => exact .none
    | some distance => exact .some rfl
  rintro further distance _ later rfl
  have store := machines.store.widen (respelling.within_kinship later)
  have absent : Mirrors respelling further marks (fail (.variableAt reference.name))
      (fail (.variableAt reference.name)) respelling.Values := mirrors_fail (.same _)
  have unbound : Mirrors respelling further marks
      (fail (.undefinedVariable "this" reference.name.line))
      (fail (.undefinedVariable "this" reference.name.line)) respelling.Values :=
    mirrors_fail (.same _)
  have above := store.lookupAt? machine.environment distance
    fun _ _ => names_super old new _
  generalize machine.environment.lookupAt? machine.store distance "super" = superclass,
    machine.environment.lookupAt? machine'.store distance "super" = superclass' at above
  cases above with
  | none => exact absent
  | some same =>
      cases same with
      | cls classes =>
          cases distance with
          | zero => exact unbound
          | succ distance =>
              have here := store.lookupAt? machine.environment distance
                fun _ _ => names_this old new _
              dsimp only
              generalize machine.environment.lookupAt? machine.store distance "this" = receiver,
                machine.environment.lookupAt? machine'.store distance "this" = receiver' at here
              cases here with
              | none => exact unbound
              | some same =>
                  cases same with
                  | object objects =>
                      exact mirrors_foundMethod old new (classes.method? method.lexeme) objects
                  | _ => exact unbound
      | _ => exact absent

end Keywords

theorem mirrors_setProperty {object object' : Instance} {value value' : Value} (name : Token)
    (objects : object.Akin (respelling.kinship layout) object')
    (same : respelling.Values layout value value') :
    Mirrors respelling layout marks (object.setProperty name value)
      (object'.setProperty name value') fun _ _ _ => True := by
  unfold Instance.setProperty
  rw [objects.reference]
  exact mirrors_modifyStore (fun stores => stores.setField _ _ same) fun _ => rfl

/-! ## Classes -/

theorem mirrors_superclassOf {superclass superclass' : Expr} {value value' : Value} (name : Token)
    (line : superclass'.line? = superclass.line?) (same : respelling.Values layout value value') :
    Mirrors respelling layout marks (superclassOf name superclass value)
      (superclassOf name superclass' value')
      fun grown => Class.Akin (respelling.kinship grown) := by
  unfold superclassOf
  rw [line]
  cases same with
  | cls classes => exact mirrors_pure classes
  | _ => exact mirrors_fail (.same _)

theorem mirrors_declareMethods {methods methods' : List FunctionDecl}
    (renames : FunctionDecl.ListRenames respelling respelling.apart (false :: marks) methods
      methods')
    {before before' : Bindings Closure}
    (known : before.Paired Eq (respelling.kinship layout).method before') :
    Mirrors respelling layout marks (declareMethods methods before)
      (declareMethods methods' before')
      fun grown => Bindings.Paired Eq (respelling.kinship grown).method := by
  induction methods generalizing layout methods' before before' with
  | nil =>
      cases renames
      exact mirrors_pure known
  | cons first rest ih =>
      cases renames with
      | cons head tail =>
          unfold declareMethods
          rw [head.name]
          apply (mirrors_declare _ head).bind
          intro grown closure closure' grows closures
          have known := known.imp (respelling.within_kinship grows).method
          exact ih tail (known.set Bindings.oneToOne_eq rfl closures)

/-- Methods are declared where there is a scope for `super` if the class inherits. -/
theorem mirrors_methodEnvironment (old : IsOrdinaryName respelling.old)
    (new : IsOrdinaryName respelling.new) {outer : Environment} (around : layout.Around outer marks)
    {superclass superclass' : Option Class}
    (above : Option.Rel (Class.Akin (respelling.kinship layout)) superclass superclass')
    {inside : Marks} :
    Mirrors respelling layout inside (methodEnvironment outer superclass)
      (methodEnvironment outer superclass')
      fun grown inner inner' => inner = inner' ∧ grown.Around inner (marks.inherit superclass) := by
  cases above with
  | none => exact mirrors_pure ⟨rfl, around⟩
  | some same =>
      exact mirrors_newScope false around (Bindings.paired_empty.set
        (respelling.oneToOne_names false) (names_super old new false) (.cls same))

/-- A function or class has its own name in the scope where it is declared. -/
theorem names_fixed {name : Token} (kept : respelling.apart.fixed marks name) :
    respelling.Names marks.here name.lexeme name.lexeme := by
  cases here : marks.here with
  | false => exact Respelling.names_false _
  | true =>
      exact Respelling.names_self true (kept.2 here) (kept.1 (Marks.mem_of_changes here))

theorem mirrors_declareClass (old : IsOrdinaryName respelling.old)
    (new : IsOrdinaryName respelling.new) {name : Token} {superclass superclass' : Option Class}
    {methods methods' : List FunctionDecl} (kept : respelling.apart.fixed marks name)
    (above : Option.Rel (Class.Akin (respelling.kinship layout)) superclass superclass')
    (renames : FunctionDecl.ListRenames respelling respelling.apart
      (false :: marks.inherit superclass) methods methods') :
    Mirrors respelling layout marks (declareClass name superclass methods)
      (declareClass name superclass' methods') fun _ _ _ => True := by
  have widened {grown : Layout} (grows : layout <+: grown) :
      Option.Rel (Class.Akin (respelling.kinship grown)) superclass superclass' := by
    cases above with
    | none => exact .none
    | some same => exact .some (same.widen (respelling.within_kinship grows))
  apply (mirrors_define (names_fixed kept) .nil).bind
  intro first _ _ grows _
  apply mirrors_get.bind
  intro second machine machine' grown machines
  rw [machines.environment]
  apply (mirrors_methodEnvironment old new machines.around (widened (grows.trans grown))).bind
  rintro third inner _ more ⟨rfl, around⟩
  apply (mirrors_within around (mirrors_declareMethods renames Bindings.paired_empty)).bind
  intro fourth closures closures' later known
  apply mirrors_newIdentity.bind
  rintro fifth identity _ last rfl
  have known := known.imp (respelling.within_kinship last).method
  have prior := widened (grows.trans (grown.trans (more.trans (later.trans last))))
  exact mirrors_define (names_fixed kept) (.cls (Class.akin_extend ⟨rfl, rfl, known⟩ prior))

/-! ## Calls -/

/-- The arguments of a call have the names of the parameters. -/
theorem parameterBindings_respelled {closure closure' : Closure} {mark : Bool}
    {arguments arguments' : List Value}
    (listed : ∀ parameter ∈ closure.declaration.parameters,
      mark = true → parameter.lexeme ≠ respelling.new)
    (renamed : closure'.declaration.parameters =
      closure.declaration.parameters.map (respelling.token mark))
    (values : List.Forall₂ (respelling.Values layout) arguments arguments') :
    (closure.parameterBindings arguments).Paired (respelling.Names mark)
      (respelling.Values layout) (closure'.parameterBindings arguments') := by
  have bound {parameters : List Token}
      (listed : ∀ parameter ∈ parameters, mark = true → parameter.lexeme ≠ respelling.new)
      {bindings bindings' : Bindings Value}
      (before : bindings.Paired (respelling.Names mark) (respelling.Values layout) bindings') :
      ((parameters.zip arguments).foldl
          (fun bindings entry => bindings.set entry.1.lexeme entry.2) bindings).Paired
        (respelling.Names mark) (respelling.Values layout)
        (((parameters.map (respelling.token mark)).zip arguments').foldl
          (fun bindings entry => bindings.set entry.1.lexeme entry.2) bindings') := by
    induction parameters generalizing arguments arguments' bindings bindings' with
    | nil => exact before
    | cons first _ ih =>
        cases values with
        | nil => exact before
        | cons held rest =>
            apply ih rest fun parameter inside => listed parameter (.tail _ inside)
            exact before.set (respelling.oneToOne_names mark) ⟨listed first (.head _), rfl⟩ held
  unfold Closure.parameterBindings
  rw [renamed]
  exact bound listed Bindings.paired_empty

/-! ## Evaluation -/

/-- What takes no more than a number of steps ends in the same way once it is renamed. -/
structure MirrorsWithin (respelling : Respelling) (steps : Nat) : Prop where
  evaluate : ∀ {layout marks value}, (true ∈ marks → value.Apart respelling) →
    Mirrors respelling layout marks (evaluate steps value)
      (evaluate steps (value.rename respelling marks)) respelling.Values
  execute : ∀ {layout marks statement statement'},
    statement.Renames respelling respelling.apart marks statement' →
    Mirrors respelling layout marks (execute steps statement) (execute steps statement')
      fun grown => Flow.Akin (respelling.kinship grown)
  invoke : ∀ {layout marks callable callable' arguments arguments'} (line : Nat),
    callable.Akin (respelling.kinship layout) callable' →
    List.Forall₂ (respelling.Values layout) arguments arguments' →
    Mirrors respelling layout marks (invoke steps callable arguments line)
      (invoke steps callable' arguments' line) respelling.Values

section Step

variable {steps : Nat} (old : IsOrdinaryName respelling.old) (new : IsOrdinaryName respelling.new)
variable (below : MirrorsWithin respelling steps)
include old new below

theorem mirrors_evaluate {value : Expr} (apart : true ∈ marks → value.Apart respelling) :
    Mirrors respelling layout marks (evaluate (steps + 1) value)
      (evaluate (steps + 1) (value.rename respelling marks)) respelling.Values := by
  cases value with
  | literal literal => exact mirrors_pure (Value.akin_literal literal)
  | grouping inner => exact below.evaluate apart
  | unary operator operand =>
      have inner : true ∈ marks → operand.Apart respelling := apart
      apply (below.evaluate inner).bind
      intro grown held held' _ values
      rw [values.unary]
      exact mirrors_ofOperator operator fun _ succeeds _ => Value.akin_unary succeeds
  | binary left operator right =>
      apply (below.evaluate fun marked => (apart marked).1).bind
      intro first one one' _ ones
      apply (below.evaluate fun marked => (apart marked).2).bind
      intro second two two' grows twos
      rw [(ones.widen (respelling.within_kinship grows)).binary twos]
      exact mirrors_ofOperator operator fun _ succeeds _ => Value.akin_binary succeeds
  | logical left operator right =>
      apply (below.evaluate fun marked => (apart marked).1).bind
      intro grown one one' _ ones
      rw [ones.decides]
      split
      · exact mirrors_pure ones
      · exact below.evaluate fun marked => (apart marked).2
  | «variable» reference => exact mirrors_read (Reference.respelled_use apart)
  | assign reference value =>
      apply (below.evaluate fun marked => (apart marked).2).bind
      intro grown held held' _ values
      apply (mirrors_write (Reference.respelled_use fun marked => (apart marked).1) values).bind
      exact fun grows _ => mirrors_pure (values.widen (respelling.within_kinship grows))
  | call callee paren arguments =>
      apply (below.evaluate fun marked => (apart marked).1).bind
      intro first function function' _ functions
      apply (mirrors_collect (fun marked => (apart marked).2) below.evaluate).bind
      intro second values values' grows given
      have found := (functions.widen (respelling.within_kinship grows)).callable?
      generalize function.callable? = callable, function'.callable? = callable' at found
      cases found with
      | none => exact mirrors_fail (.same _)
      | some same =>
          dsimp only
          rw [given.length_eq, same.arity]
          split
          · exact below.invoke paren.line same given
          · exact mirrors_fail (.same _)
  | get object name =>
      have inner : true ∈ marks → object.Apart respelling := apart
      apply (below.evaluate inner).bind
      intro grown held held' _ values
      cases values with
      | object same => exact mirrors_property old new name same
      | _ => exact mirrors_fail (.same _)
  | set object name value =>
      apply (below.evaluate fun marked => (apart marked).1).bind
      intro first held held' _ values
      cases values with
      | object same =>
          apply (below.evaluate fun marked => (apart marked).2).bind
          intro second stored stored' grows others
          have same := same.widen (respelling.within_kinship grows)
          apply (mirrors_setProperty name same others).bind
          exact fun later _ => mirrors_pure (others.widen (respelling.within_kinship later))
      | _ => exact mirrors_fail (.same _)
  | this reference => exact mirrors_read (Reference.respelled_self apart)
  | super reference method => exact mirrors_superMethod old new reference method

omit old new in
/-- A loop behind its first clause. -/
theorem mirrors_forLoop {condition increment : Option Expr} {body statement' : Stmt}
    (renames : (Stmt.forLoop none condition increment body).Renames respelling respelling.apart
      marks statement') :
    Mirrors respelling layout marks
      (execute (steps + 1) (.forLoop none condition increment body))
      (execute (steps + 1) statement') fun grown => Flow.Akin (respelling.kinship grown) := by
  have again := renames
  cases renames with
  | forLoop first asked askedThen fourth =>
      cases first
      apply (mirrors_goesOn asked below.evaluate).bind
      rintro grown goesOn _ _ rfl
      split
      · apply (below.execute fourth).bind
        intro further flow flow' _ flows
        cases flows with
        | returned same => exact mirrors_pure (.returned same)
        | normal =>
            cases increment with
            | none => exact below.execute again
            | some step =>
                exact (below.evaluate (askedThen step rfl)).bind fun _ _ => below.execute again
      · exact mirrors_pure .normal

theorem mirrors_execute {statement statement' : Stmt}
    (renames : statement.Renames respelling respelling.apart marks statement') :
    Mirrors respelling layout marks (execute (steps + 1) statement)
      (execute (steps + 1) statement') fun grown => Flow.Akin (respelling.kinship grown) := by
  have done {layout : Layout} : Mirrors respelling layout marks (pure Flow.normal)
      (pure Flow.normal) fun grown => Flow.Akin (respelling.kinship grown) :=
    mirrors_pure .normal
  cases renames with
  | expression asked => exact (below.evaluate asked).bind fun _ _ => done
  | print asked =>
      exact (below.evaluate asked).bind fun _ values => (mirrors_print values).bind fun _ _ => done
  | @var _ name initializer named asked =>
      have names : respelling.Names marks.here name.lexeme
          (respelling.token marks.here name).lexeme :=
        ⟨fun here => named (Marks.mem_of_changes here), rfl⟩
      cases initializer with
      | none => exact (mirrors_define names .nil).bind fun _ _ => done
      | some value =>
          exact (below.evaluate (asked value rfl)).bind fun _ values =>
            (mirrors_define names values).bind fun _ _ => done
  | block mark _ parts =>
      apply mirrors_get.bind
      intro first machine machine' _ machines
      rw [machines.environment]
      apply (mirrors_newScope mark machines.around Bindings.paired_empty).bind
      rintro second inner _ _ ⟨rfl, around⟩
      exact mirrors_within around (mirrors_sequence parts below.execute)
  | conditional asked second third =>
      apply (below.evaluate asked).bind
      intro grown held held' _ values
      rw [values.isTruthy]
      split
      · exact below.execute second
      · cases third with
        | none => exact done
        | some alternative => exact below.execute alternative
  | whileLoop asked second =>
      apply (below.evaluate asked).bind
      intro first held held' _ values
      rw [values.isTruthy]
      split
      · apply (below.execute second).bind
        intro grown flow flow' _ flows
        cases flows with
        | normal => exact below.execute (.whileLoop asked second)
        | returned same => exact mirrors_pure (.returned same)
      · exact done
  | forLoop first asked askedThen fourth =>
      cases first with
      | none => exact mirrors_forLoop below (.forLoop .none asked askedThen fourth)
      | some initializer =>
          exact (below.execute initializer).bind fun _ _ =>
            below.execute (.forLoop .none asked askedThen fourth)
  | function kept parts =>
      have name := parts.name
      have declares : Mirrors respelling layout marks (Closure.declare _ false)
          (Closure.declare _ false) (Closure.Respelled respelling id) :=
        mirrors_declare false parts
      apply declares.bind
      intro grown closure closure' _ closures
      rw [name]
      exact (mirrors_define (names_fixed kept) (.function closures)).bind fun _ _ => done
  | @returning _ _ value asked =>
      cases value with
      | none => exact mirrors_pure (.returned .nil)
      | some value =>
          exact (below.evaluate (asked value rfl)).bind fun _ values =>
            mirrors_pure (.returned values)
  | @classDecl _ name superclass _ _ kept asked parts =>
      cases superclass with
      | none => exact (mirrors_declareClass old new kept .none parts).bind fun _ _ => done
      | some superclass =>
          apply (below.evaluate (asked superclass rfl)).bind
          intro first held held' _ values
          apply (mirrors_superclassOf name superclass.line_rename values).bind
          intro second found found' _ classes
          exact (mirrors_declareClass old new kept (.some classes) parts).bind fun _ _ => done

theorem mirrors_invoke {callable callable' : Callable} {arguments arguments' : List Value}
    (line : Nat) (same : callable.Akin (respelling.kinship layout) callable')
    (given : List.Forall₂ (respelling.Values layout) arguments arguments') :
    Mirrors respelling layout marks (invoke (steps + 1) callable arguments line)
      (invoke (steps + 1) callable' arguments' line) respelling.Values := by
  cases same with
  | native host => exact mirrors_callHost host _ _ line
  | @function closure closure' closures =>
      obtain ⟨inside, around, renames⟩ := closures.declared
      have bindings {mark : Bool} := @parameterBindings_respelled respelling layout closure closure'
        mark arguments arguments'
      unfold invoke
      dsimp only
      rw [closures.environment]
      generalize closure.declaration = declaration, closure'.declaration = declaration'
        at renames bindings ⊢
      cases renames with
      | @intro _ _ parameters _ _ mark _ listed parts =>
          have named : ∀ parameter ∈ parameters, mark = true → parameter.lexeme ≠ respelling.new :=
            fun parameter inside here => listed parameter inside (here ▸ .head _)
          apply (mirrors_newScope mark around (bindings named rfl given)).bind
          rintro grown inner _ grows ⟨rfl, entered⟩
          apply (mirrors_within entered (mirrors_sequence parts below.execute)).bind
          intro further flow flow' later flows
          exact mirrors_result old new (closures.grow (grows.trans later)) flows
  | @cls found found' classes =>
      apply (mirrors_newInstance classes).bind
      intro first object object' grows objects
      have initializes := (classes.widen (respelling.within_kinship grows)).initializer?
      generalize found.initializer? = method, found'.initializer? = method' at initializes
      cases initializes with
      | none => exact mirrors_pure (.object objects)
      | some methods =>
          apply (mirrors_bindMethod old new methods objects).bind
          intro second bound bound' later closures
          have given := given.imp fun _ _ held =>
            held.widen (respelling.within_kinship (grows.trans later))
          have objects := objects.widen (respelling.within_kinship later)
          apply (below.invoke line (.function closures) given).bind
          exact fun last _ =>
            mirrors_pure (.object (objects.widen (respelling.within_kinship last)))

end Step

/-- Renamed trees end in the same way, however many steps they take. -/
theorem mirrorsWithin (old : IsOrdinaryName respelling.old) (new : IsOrdinaryName respelling.new)
    (steps : Nat) : MirrorsWithin respelling steps := by
  induction steps with
  | zero =>
      exact ⟨fun _ => mirrors_throw .outOfSteps, fun _ => mirrors_throw .outOfSteps,
        fun _ _ _ => mirrors_throw .outOfSteps⟩
  | succ steps ih =>
      exact ⟨mirrors_evaluate old new ih, mirrors_execute old new ih, mirrors_invoke old new ih⟩

/-- Renamed programs end in the same way. -/
theorem mirrors_interpret (old : IsOrdinaryName respelling.old)
    (new : IsOrdinaryName respelling.new) (steps : Nat) {program program' : List Stmt}
    (renames : Stmt.ListRenames respelling respelling.apart marks program program') :
    Mirrors respelling layout marks (interpret steps program) (interpret steps program')
      fun _ _ _ => True := by
  induction program generalizing layout program' with
  | nil =>
      cases renames
      exact mirrors_flush
  | cons first rest ih =>
      cases renames with
      | cons head tail =>
          exact ((mirrorsWithin old new steps).execute head).bind fun _ _ => ih tail

end Lox
