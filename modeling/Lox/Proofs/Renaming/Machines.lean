import Lox.Proofs.Evaluation.Akin
import Lox.Proofs.Evaluation.Alike
import Lox.Proofs.Renaming.Basic

/-!
# Machines of renamed programs

While a program and a renamed one run, their stores have the same scopes, and in each
of them the name changes or it does not. A layout says so for every scope of a store.
It only grows, so that what is known of an environment stays known.
-/

namespace Lox

/-! ## Layouts -/

/-- Whether the name changes in each scope of a store, in the order in which the scopes
were made. -/
abbrev Layout := List Bool

namespace Layout

variable {layout grown : Layout} {environment : Environment} {marks : Marks} {mark : Bool}
variable {reference : ScopeRef}

/-- Whether the name changes in a scope of a store. -/
def changes (layout : Layout) (reference : ScopeRef) : Bool :=
  layout.getD reference.index false

/-- An environment has the scopes that are around a point of a program. -/
def Around (layout : Layout) (environment : Environment) (marks : Marks) : Prop :=
  ∀ distance reference, environment.scopeAt? distance = some reference →
    layout[reference.index]? = some (marks.changes distance)

theorem changes_of_getElem? (known : layout[reference.index]? = some mark) :
    layout.changes reference = mark := by
  simp [changes, List.getD_eq_getElem?_getD, known]

theorem getElem?_of_prefix {index : Nat} (grows : layout <+: grown)
    (known : layout[index]? = some mark) : grown[index]? = some mark := by
  obtain ⟨more, rfl⟩ := grows
  exact List.getElem?_append_left (List.getElem?_eq_some_iff.mp known).1 ▸ known

/-- In a scope that is there already nothing changes later. -/
theorem changes_of_prefix (grows : layout <+: grown) (inside : reference.index < layout.length) :
    grown.changes reference = layout.changes reference := by
  obtain ⟨more, rfl⟩ := grows
  unfold changes
  rw [List.getD_eq_getElem?_getD, List.getD_eq_getElem?_getD, List.getElem?_append_left inside]

theorem Around.grow (around : layout.Around environment marks) (grows : layout <+: grown) :
    grown.Around environment marks :=
  fun distance reference found => getElem?_of_prefix grows (around distance reference found)

theorem Around.changes (around : layout.Around environment marks) {distance : Nat}
    (found : environment.scopeAt? distance = some reference) :
    layout.changes reference = marks.changes distance :=
  changes_of_getElem? (around distance reference found)

/-- A new scope stands inside an environment. -/
theorem Around.enter (around : layout.Around environment marks) (mark : Bool) :
    Around (layout ++ [mark]) (⟨layout.length⟩ :: environment) (mark :: marks) := by
  intro distance reference found
  cases distance with
  | zero =>
      cases found
      simp
  | succ distance =>
      exact getElem?_of_prefix (List.prefix_append _ _) (around distance reference found)

end Layout

/-! ## Values -/

/-- The same function, renamed. Its declaration stands at a point around which there are
the scopes that it has kept, or in scopes that are entered from there. -/
structure Closure.Respelled (respelling : Respelling) (enter : Marks → Marks) (layout : Layout)
    (one other : Closure) : Prop where
  identity : other.identity = one.identity
  environment : other.environment = one.environment
  isInitializer : other.isInitializer = one.isInitializer
  declared : ∃ marks, layout.Around one.environment marks ∧
    one.declaration.Renames respelling respelling.apart (enter marks) other.declaration

namespace Closure.Respelled

variable {respelling : Respelling} {enter : Marks → Marks} {layout grown : Layout}
variable {one other : Closure}

theorem grow (respelled : one.Respelled respelling enter layout other)
    (grows : layout <+: grown) : one.Respelled respelling enter grown other :=
  have ⟨marks, around, renames⟩ := respelled.declared
  ⟨respelled.identity, respelled.environment, respelled.isInitializer, marks, around.grow grows,
    renames⟩

theorem name (respelled : one.Respelled respelling enter layout other) :
    other.name = one.name := by
  obtain ⟨_, _, renames⟩ := respelled.declared
  exact congrArg Token.lexeme renames.name

theorem arity (respelled : one.Respelled respelling enter layout other) :
    other.arity = one.arity := by
  obtain ⟨_, _, renames⟩ := respelled.declared
  unfold Closure.arity
  generalize one.declaration = declaration, other.declaration = declaration' at renames
  cases renames
  simp

end Closure.Respelled

namespace Respelling

variable (respelling : Respelling)

/-- Functions stand for each other if they are renamed. The methods of a class are
declared in a scope for `this`, which they get only when they are bound to an object. -/
def kinship (layout : Layout) : Kinship where
  function := Closure.Respelled respelling id layout
  method := Closure.Respelled respelling (false :: ·) layout
  identity respelled := respelled.identity.symm
  name respelled := respelled.name.symm
  arity respelled := respelled.arity.symm
  arityOfMethod respelled := respelled.arity.symm

theorem within_kinship {layout grown : Layout} (grows : layout <+: grown) :
    (respelling.kinship layout).Within (respelling.kinship grown) :=
  ⟨fun respelled => respelled.grow grows, fun respelled => respelled.grow grows⟩

/-- The names that stand for each other in a scope of a store. -/
def NamesIn (layout : Layout) (reference : ScopeRef) : String → String → Prop :=
  respelling.Names (layout.changes reference)

/-- Values that differ in renamed functions only. -/
abbrev Values (layout : Layout) : Value → Value → Prop :=
  Value.Akin (respelling.kinship layout)

end Respelling

variable {respelling : Respelling} {layout grown : Layout} {marks : Marks}

/-! ## Faults -/

/-- The same fault, about the new name instead of the old one if need be. -/
inductive RuntimeFault.Respelled (respelling : Respelling) :
    RuntimeFault → RuntimeFault → Prop where
  | same (fault : RuntimeFault) : RuntimeFault.Respelled respelling fault fault
  | renamed (line : Nat) : RuntimeFault.Respelled respelling
      (.undefinedVariable respelling.old line) (.undefinedVariable respelling.new line)

/-- The same reason to stop. -/
inductive Halt.Respelled (respelling : Respelling) : Halt → Halt → Prop where
  | fault {fault fault' : RuntimeFault} (same : fault.Respelled respelling fault') :
      Halt.Respelled respelling (.fault fault) (.fault fault')
  | outOfSteps : Halt.Respelled respelling .outOfSteps .outOfSteps

/-- A use of a name whose name changes if that of the scope does which it is bound to. -/
structure Reference.Respelled (respelling : Respelling) (marks : Marks) (one other : Reference) :
    Prop where
  id : other.id = one.id
  line : other.name.line = one.name.line
  name : respelling.Names (respelling.bound marks one) one.name.lexeme other.name.lexeme

namespace Reference

variable {reference reference' : Reference}

theorem respelled_use (fresh : true ∈ marks → reference.name.lexeme ≠ respelling.new) :
    reference.Respelled respelling marks (respelling.use marks reference) := by
  refine ⟨rfl, rfl, fun bound => fresh ?_, rfl⟩
  obtain ⟨distance, -, changed⟩ := Option.any_eq_true _ _ |>.mp bound
  exact Marks.mem_of_changes changed

theorem respelled_self (apart : true ∈ marks → reference.name.lexeme ≠ respelling.old ∧
    reference.name.lexeme ≠ respelling.new) : reference.Respelled respelling marks reference := by
  refine ⟨rfl, rfl, ?_⟩
  cases bound : respelling.bound marks reference with
  | false => exact Respelling.names_false _
  | true =>
      obtain ⟨distance, -, changed⟩ := Option.any_eq_true _ _ |>.mp bound
      have both := apart (Marks.mem_of_changes changed)
      exact Respelling.names_self true both.1 both.2

theorem Respelled.variableAt (respelled : reference.Respelled respelling marks reference') :
    (RuntimeFault.variableAt reference.name).Respelled respelling
      (.variableAt reference'.name) := by
  have name := respelled.name.2
  unfold RuntimeFault.variableAt
  rw [respelled.line, name]
  unfold Respelling.name
  split
  · next changed =>
      rw [changed.2]
      exact .renamed _
  · exact .same _

end Reference

/-! ## Machines -/

/-- Two machines in the same state, the second one of a renamed program, at a point
around which there are the scopes given. -/
structure Machine.Respelled (respelling : Respelling) (layout : Layout) (marks : Marks)
    (one other : Machine) : Prop where
  store : one.store.Akin (respelling.NamesIn layout) (respelling.kinship layout) other.store
  size : one.store.scopes.size = layout.length
  globals : layout[globalScope.index]? = some false
  around : layout.Around one.environment marks
  environment : other.environment = one.environment
  noted : one.distances = respelling.distances
  distances : other.distances = one.distances
  nextIdentity : other.nextIdentity = one.nextIdentity
  hostCalls : other.hostCalls = one.hostCalls
  sink : other.sink = one.sink
  host : ∃ time, one.host.Tells time ∧ other.host.Tells time

namespace Machine.Respelled

variable {one other : Machine}

theorem withStore (respelled : one.Respelled respelling layout marks other) {store store' : Store}
    (same : store.Akin (respelling.NamesIn layout) (respelling.kinship layout) store')
    (size : store.scopes.size = one.store.scopes.size) :
    Machine.Respelled respelling layout marks { one with store := store }
      { other with store := store' } :=
  { respelled with store := same, size := size.trans respelled.size }

/-- The same machines at a point with other scopes around it. -/
theorem withEnvironment (respelled : one.Respelled respelling layout marks other)
    {environment : Environment} {inside : Marks} (around : layout.Around environment inside) :
    Machine.Respelled respelling layout inside { one with environment := environment }
      { other with environment := environment } :=
  { respelled with around := around, environment := rfl }

/-- With a new scope the layout grows. -/
theorem addScope (respelled : one.Respelled respelling layout marks other) {mark : Bool}
    {bindings bindings' : Bindings Value}
    (paired : bindings.Paired (respelling.Names mark) (respelling.Values layout) bindings') :
    Machine.Respelled respelling (layout ++ [mark]) marks
      { one with store := (one.store.addScope bindings).2 }
      { other with store := (other.store.addScope bindings').2 } := by
  have grows : layout <+: layout ++ [mark] := List.prefix_append _ _
  have within := respelling.within_kinship grows
  refine { respelled with store := ?_, size := ?_, globals := ?_, around := ?_ }
  · apply (respelled.store.widen within).addScope
    · intro reference inside
      unfold Respelling.NamesIn
      rw [Layout.changes_of_prefix grows (respelled.size ▸ inside)]
    · unfold Respelling.NamesIn
      rw [@Layout.changes_of_getElem? _ mark ⟨_⟩ (by simp [respelled.size])]
      exact paired.imp (·.widen within)
  · simp [Store.addScope, respelled.size]
  · exact Layout.getElem?_of_prefix grows respelled.globals
  · exact respelled.around.grow grows

end Machine.Respelled

end Lox
