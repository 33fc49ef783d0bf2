import Lox.Proofs.Lexical.Scopes

/-!
# Functions and classes side by side

A method captures the names of its class, and a bound one has `this` on top of
them. Where the machine asks for `this` and `super` at neighbouring distances, the
direct evaluator looks up both names.
-/

namespace Lox.Lexical

variable {survey : Survey} {declared : List String} {before : Coupling}
variable {scopes : List (Bindings Readiness)} {names : Names}

/-! ## Methods -/

/-- A scope that a class opens for one name. -/
theorem simulates_keyword (sound : before.Sound survey) {outer : Environment}
    (matching : before.Matches scopes outer names) (text : String) {value : Value}
    (held : before.Holds survey value) :
    Simulates survey declared before (Run.newScope outer (Bindings.empty.set text value))
      (newCell value.erased) fun after inner cell =>
        after.Matches (Bindings.empty.set text .ready :: scopes) inner
          (names.extend text cell) := by
  have heldHere (entry : String × Value) (inside : entry ∈ [(text, value)]) :
      before.Holds survey entry.2 := by
    obtain rfl := List.mem_singleton.mp inside
    exact held
  have opening := opening_entries heldHere
  have grows : before.Grows survey declared (before.opened _ _ _) := sound.opened opening
  have state : (before.opened (Bindings.empty.set text value) #[value.erased]
      (cellOf before.state.cells.size [text])).state =
      { before.state with cells := before.state.cells.push value.erased } := by
    rw [Array.push_eq_append]
    rfl
  have ran : newCell value.erased before.state = .ok before.state.cells.size
      (before.opened (Bindings.empty.set text value) #[value.erased]
        (cellOf before.state.cells.size [text])).state := by
    rw [state]
    rfl
  have cellOf_self : cellOf before.state.cells.size [text] text =
      some before.state.cells.size := if_pos rfl
  unfold Simulates
  rw [ran]
  refine .ok grows ?_
  apply matching.opened sound opening
  · intro name ready
    rw [Bindings.get?_set] at ready
    split at ready
    · next same => exact same ▸ contains_entries (.inl (.head _))
    · cases ready
  · intro name contained
    rw [Bindings.contains_set, Bool.or_eq_true, decide_eq_true_eq] at contained
    obtain rfl := contained.resolve_right (by simp)
    exact ⟨_, cellOf_self, Bindings.get?_set_self ..⟩
  · intro name outside
    rw [Bindings.contains_set, Bool.or_eq_false_iff, decide_eq_false_iff_not] at outside
    rw [Bindings.get?_set, if_neg outside.1]
    cases names <;> rfl

/-- Binding a method puts it into a scope that holds its object. -/
theorem simulates_bindMethod (sound : before.Sound survey) {method : Closure} {object : Instance}
    (declares : ∃ analysis outer, before.DeclaresMethod survey method analysis outer)
    (held : before.HoldsClass survey object.cls) :
    Simulates survey declared before (method.bind object)
      (bindMethod method.erased object.erased) fun after bound bound' =>
        bound' = bound.erased ∧ bound.declaration = method.declaration ∧
          ∃ analysis, after.Declares survey bound analysis := by
  obtain ⟨analysis, outer, method⟩ := declares
  have value : before.Holds survey (.object object) := held
  apply simulates_look'
  apply (simulates_keyword sound method.matching "this" value).bind
  intro opened environment cell grows matching
  apply (simulates_capture grows.sound _).bind
  rintro after identity _ growsOn ⟨rfl, known, captured⟩
  refine simulates_pure growsOn.sound ⟨rfl, rfl, analysis, known, method.lists, ?_,
    fun _ => ⟨outer, method.scopes⟩⟩
  rw [captured _ rfl, method.scopes]
  exact matching.grow growsOn.toExtends

/-- A method is looked up in a class and in what is left of it. -/
theorem simulates_method (sound : before.Sound survey) {cls : Class}
    (held : before.HoldsClass survey cls) (name : String) (fault : RuntimeFault) :
    Simulates survey declared before (Run.orFail (cls.method? name) fault)
      (orFail (cls.erased.method? name) fault) fun after method method' =>
        method' = method.erased ∧
          ∃ analysis outer, after.DeclaresMethod survey method analysis outer := by
  rw [Class.method?_erased]
  cases found : cls.method? name with
  | none => exact simulates_fail sound
  | some method => exact simulates_pure sound ⟨rfl, held.method found⟩

/-- A method is looked up and bound. -/
theorem simulates_boundMethod (sound : before.Sound survey) {cls : Class} {object : Instance}
    (held : before.HoldsClass survey cls) (receiver : before.HoldsClass survey object.cls)
    (name : Token) :
    Simulates survey declared before
      (do
        let method ← Run.orFail (cls.method? name.lexeme) (.propertyAt name)
        return .function (← method.bind object))
      (do
        let method ← orFail (cls.erased.method? name.lexeme) (.propertyAt name)
        return .function (← bindMethod method object.erased))
      (Coupling.Same survey) := by
  apply (simulates_method sound held name.lexeme _).bind
  rintro middle method _ grows ⟨rfl, declares⟩
  apply (simulates_bindMethod grows.sound declares (receiver.grow grows.toExtends)).bind
  rintro after bound _ growsOn ⟨rfl, -, declaresBound⟩
  exact simulates_pure growsOn.sound ⟨rfl, declaresBound⟩

theorem simulates_property (sound : before.Sound survey) {object : Instance}
    (held : before.HoldsClass survey object.cls) (name : Token) :
    Simulates survey declared before (object.property name) (property object.erased name)
      (Coupling.Same survey) := by
  have fields : before.state.fieldsOf object.erased.reference =
      (before.machine.store.fieldsOf object.reference).map Value.erased := by
    change before.state.fields[object.reference.index]?.getD .empty =
      (before.machine.store.fields[object.reference.index]?.getD .empty).map Value.erased
    rw [sound.fields, Array.getElem?_map]
    cases before.machine.store.fields[object.reference.index]? <;> rfl
  apply simulates_look
  apply simulates_look'
  rw [fields, Bindings.get?_map]
  cases found : (before.machine.store.fieldsOf object.reference).get? name.lexeme with
  | some value => exact simulates_pure sound ⟨rfl, sound.fielded _ _ _ found⟩
  | none => exact simulates_boundMethod sound held held name

/-- Both sides go on with what they have found. -/
theorem simulates_found {α β γ δ : Type} {related : Coupling → γ → δ → Prop} {found : Option α}
    {found' : Option β} {value : α} {value' : β} {fault fault' : RuntimeFault} {next : α → Run γ}
    {next' : β → Action δ} (here : found = some value) (there : found' = some value')
    (back : Simulates survey declared before (next value) (next' value') related) :
    Simulates survey declared before (Run.orFail found fault >>= next)
      (orFail found' fault' >>= next') related := by
  subst here there
  exact back

/-- Where `this` and `super` are in neighbouring scopes, both sides find the same
object and the same class. -/
theorem simulates_superMethod (sound : before.Sound survey)
    (matching : before.Matches scopes before.machine.environment names) {reference : Reference}
    {distance : Nat} (method : Token)
    (noted : before.machine.distances.get? reference.id = some (distance + 1))
    (object : nearest scopes "this" = some distance)
    (above : nearest scopes "super" = some (distance + 1))
    (awake : ∀ scope ∈ scopes, ∀ name, ¬ IsOrdinaryName name → scope.get? name ≠ some .pending) :
    Simulates survey declared before (Lox.superMethod reference method)
      (superMethod names reference method) (Coupling.Same survey) := by
  -- What both sides find under one of the two names.
  have looked (name : String) (keyword : ¬ IsOrdinaryName name) (far : Nat)
      (found : nearest scopes name = some far) : ∃ cell value,
        names.cell? name = some cell ∧
        before.machine.environment.lookupAt? before.machine.store far name = some value ∧
        before.state.cells[cell]? = some value.erased ∧ before.Holds survey value := by
    obtain ⟨scope, cell, there, placed, owned⟩ := matching.present found
    obtain ⟨again, same, bound⟩ := matching.ready found fun scope here =>
      ready_of_awake (fun scope inside => awake scope inside name keyword) found here
    cases there.symm.trans same
    obtain ⟨value, stored⟩ := Option.isSome_iff_exists.mp bound
    exact ⟨cell, value, owned, Option.bind_eq_some_iff.mpr ⟨scope, there, stored⟩,
      sound.cell _ _ _ _ placed stored, sound.stored _ _ _ stored⟩
  obtain ⟨place, superclass, ownedAbove, foundAbove, storedAbove, heldAbove⟩ :=
    looked "super" (fun ordinary => ordinary.2 rfl) _ above
  obtain ⟨cell, receiver, owned, found, stored, held⟩ :=
    looked "this" (fun ordinary => ordinary.1 rfl) _ object
  apply simulates_look
  apply simulates_look'
  apply simulates_found noted ownedAbove
  dsimp only
  rw [foundAbove, storedAbove, found, owned, Option.bind_some, stored]
  cases superclass with
  | cls cls =>
      cases receiver with
      | object instance_ => exact simulates_boundMethod sound heldAbove held method
      | _ => exact simulates_fail sound
  | _ => exact simulates_fail sound

/-- An initializer yields the object that it is bound to. -/
theorem simulates_result (sound : before.Sound survey) {closure : Closure}
    (declares : ∃ analysis, before.Declares survey closure analysis) {flow : Flow}
    (held : ∀ value, flow = .returned value → before.Holds survey value) :
    Simulates survey declared before (closure.result flow) (result closure.erased flow.erased)
      (Coupling.Same survey) := by
  obtain ⟨analysis, declares⟩ := declares
  unfold Closure.result result
  change Simulates _ _ _ _ (if closure.isInitializer = true then _ else _) _
  split
  · next initializer =>
      obtain ⟨outer, shape⟩ := declares.receiver initializer
      have matching := declares.matching
      rw [shape] at matching
      have found : nearest (Bindings.empty.set "this" .ready :: outer) "this" = some 0 := by
        rw [nearest_set, if_pos rfl]
      obtain ⟨scope, cell, there, placed, owned⟩ := matching.present found
      obtain ⟨again, same, bound⟩ := matching.ready found fun scope here => by
        cases here
        exact Bindings.get?_set_self ..
      cases there.symm.trans same
      obtain ⟨value, stored⟩ := Option.isSome_iff_exists.mp bound
      have looked : closure.environment.lookupAt? before.machine.store 0 "this" = some value :=
        Option.bind_eq_some_iff.mpr ⟨scope, there, stored⟩
      have captured : capturedValue? before.state closure.erased "this" = some value.erased :=
        Option.bind_eq_some_iff.mpr ⟨cell, owned, sound.cell _ _ _ _ placed stored⟩
      apply simulates_look
      apply simulates_look'
      rw [looked, captured]
      exact simulates_pure sound ⟨rfl, sound.stored _ _ _ stored⟩
  · cases flow with
    | normal => exact simulates_pure sound ⟨rfl, trivial⟩
    | returned value => exact simulates_pure sound ⟨rfl, held value rfl⟩

/-! ## Classes -/

/-- The methods of a class, each declared inside the scopes of its receiver. -/
theorem simulates_declareMethods {outer : List (Bindings Readiness)} {loose : List (List String)}
    {methods : List FunctionDecl}
    (visits : ∀ method ∈ methods, survey.VisitsMethod outer loose method)
    {members : Bindings Closure} (sound : before.Sound survey)
    (matching : before.Matches outer before.machine.environment names)
    (declares : ∀ name method, members.get? name = some method →
      ∃ analysis outer, before.DeclaresMethod survey method analysis outer) :
    Simulates survey declared before (Lox.declareMethods methods members)
      (declareMethods names methods (members.map Closure.erased)) fun after members members' =>
        members' = members.map Closure.erased ∧
          ∀ name method, members.get? name = some method →
            ∃ analysis outer, after.DeclaresMethod survey method analysis outer := by
  induction methods generalizing before members with
  | nil => exact simulates_pure sound ⟨rfl, declares⟩
  | cons declaration rest ih =>
      obtain ⟨analysis, body, lists, shape⟩ := visits declaration (.head _)
      apply (simulates_declare sound names declaration _).bind
      rintro middle method _ grows ⟨rfl, rfl, environment, -, known, captured⟩
      rw [← Bindings.map_set]
      apply ih (fun method inside => visits method (.tail _ inside)) grows.sound
        (matching.follow grows)
      intro text found held
      rw [Bindings.get?_set] at held
      split at held
      · cases held
        refine ⟨analysis, outer, known, ⟨body, _, lists⟩, shape, ?_⟩
        rw [environment, captured]
        exact matching.follow grows
      · obtain ⟨analysis, outer, earlier⟩ := declares text found held
        exact ⟨analysis, outer, earlier.grow grows.toExtends⟩

/-- The scope of `super`, where there is a superclass. -/
theorem simulates_methodEnvironment (sound : before.Sound survey) {outer : Environment}
    (matching : before.Matches scopes outer names) {superclass : Option Expr}
    {found : Option Class} (same : found.isSome = superclass.isSome)
    (inherited : ∀ cls, found = some cls → before.HoldsClass survey cls) :
    Simulates survey declared before (methodEnvironment outer found)
      (methodNames names (found.map Class.erased)) fun after inner names' =>
        after.Matches ((Analysis.receiverScopes superclass).tail ++ scopes) inner names' := by
  cases found with
  | none =>
      cases superclass with
      | none => exact simulates_pure sound matching
      | some _ => cases same
  | some cls =>
      cases superclass with
      | none => cases same
      | some _ =>
          have held : before.Holds survey (.cls cls) := inherited cls rfl
          exact (simulates_keyword sound matching "super" held).bind
            fun after inner cell grows matching => simulates_pure grows.sound matching

/-- A class is defined whose name has been declared and whose superclass is known. -/
theorem simulates_declareClass {analysis : Analysis} {loose : List (List String)} {name : Token}
    {superclass : Option Expr} {found : Option Class} {methods : List FunctionDecl}
    (visited : survey.visited ⟨.stmt (.classDecl name superclass methods), analysis, loose⟩)
    (same : found.isSome = superclass.isSome) (sound : before.Sound survey)
    (matching : before.Matches (analysis.declare name).scopes before.machine.environment names)
    (inherited : ∀ cls, found = some cls → before.HoldsClass survey cls) :
    Simulates survey declared before (Lox.declareClass name found methods)
      (defineClass names name (found.map Class.erased) methods) fun after _ _ =>
        after.Matches (declaring [name.lexeme] analysis.scopes) after.machine.environment
          names := by
  have ordinary : IsOrdinaryName name.lexeme := (survey.placed visited).1
  have unset : Value.nil = Value.nil.erased := rfl
  apply (simulates_define sound matching ordinary (fun _ _ => contains_declare) unset
    fun _ _ _ => trivial).bind
  intro middle _ _ grows matchingName
  rw [declaring_declare] at matchingName
  apply simulates_look
  have inheritedNow (cls : Class) (given : found = some cls) : middle.HoldsClass survey cls :=
    (inherited cls given).grow grows.toExtends
  apply (simulates_methodEnvironment grows.sound matchingName same inheritedNow).bind
  intro opened inner names' growsOn matchingInner
  have enclosed : (opened.within inner).Matches
      ((Analysis.receiverScopes superclass).tail ++ declaring [name.lexeme] analysis.scopes)
      (opened.within inner).machine.environment names' :=
    matchingInner.grow (opened.extends_within inner)
  have members : Simulates survey declared opened
      (Run.within inner (Lox.declareMethods methods .empty)) (declareMethods names' methods .empty)
      fun after members members' => members' = members.map Closure.erased ∧
        ∀ name method, members.get? name = some method →
          ∃ analysis outer, after.DeclaresMethod survey method analysis outer := by
    apply Simulates.within _ growsOn.sound
    · rintro after members members' ⟨rfl, declares⟩
      refine ⟨rfl, fun text method held => ?_⟩
      obtain ⟨analysis, outer, earlier⟩ := declares text method held
      exact ⟨analysis, outer, earlier.grow (after.extends_within _)⟩
    · have none (text : String) (method : Closure)
          (held : (Bindings.empty : Bindings Closure).get? text = some method) :
          ∃ analysis outer, (opened.within inner).DeclaresMethod survey method analysis outer := by
        cases held
      exact simulates_declareMethods (visitsMethod_of_class visited) (growsOn.sound.within inner)
        enclosed none
  apply members.bind
  rintro defined members _ growsMembers ⟨rfl, declares⟩
  apply (simulates_capture growsMembers.sound names').bind
  rintro last _ identity growsLast ⟨rfl, -, -⟩
  have growsAll := (growsOn.trans growsMembers).trans growsLast
  have held (after : Coupling) (growth : last.Extends after) :
      after.HoldsClass survey (.extend ⟨identity, name.lexeme, members⟩ found) := by
    apply Coupling.holdsClass_extend
    · intro text method inside
      obtain ⟨analysis, outer, earlier⟩ := declares text method inside
      exact ⟨analysis, outer, (earlier.grow growsLast.toExtends).grow growth⟩
    · exact fun cls given => (inheritedNow cls given).grow (growsAll.toExtends.trans growth)
  have erased : Value.cls (.extend ⟨identity, name.lexeme, members.map Closure.erased⟩
      (found.map Class.erased)) =
      (Value.cls (.extend ⟨identity, name.lexeme, members⟩ found)).erased := by
    rw [Value.erased, Class.erased_extend]
    rfl
  rw [← declaring_twice]
  exact simulates_define growsLast.sound (matchingName.follow growsAll) ordinary
    (fun _ _ => contains_declaring) erased fun after growth _ => held after growth

end Lox.Lexical
