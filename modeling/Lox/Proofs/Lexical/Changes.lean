import Lox.Proofs.Lexical.Coupling

/-!
# Changes of both sides

What single steps do to a machine and to a state of the direct evaluator at once.
Each of these changes keeps both sides equal.
-/

namespace Lox.Lexical.Coupling

variable {survey : Survey} {names : List String} {before after : Coupling}

/-- What the scopes hold is held on. -/
theorem Sound.stored_grow (sound : before.Sound survey) (growth : before.Extends after)
    (scope : ScopeRef) (name : String) (found : Value)
    (bound : (before.machine.store.scope scope).get? name = some found) :
    after.Holds survey found :=
  (sound.stored scope name found bound).grow growth

/-- What the instances hold is held on. -/
theorem Sound.fielded_grow (sound : before.Sound survey) (growth : before.Extends after)
    (reference : InstanceRef) (name : String) (found : Value)
    (bound : (before.machine.store.fieldsOf reference).get? name = some found) :
    after.Holds survey found :=
  (sound.fielded reference name found bound).grow growth

/-! ## Host and output -/

/-- What was written, and the number of calls of the host. -/
def counted (before : Coupling) (calls calls' : Nat) (sink sink' : Sink) : Coupling where
  machine := { before.machine with hostCalls := calls, sink := sink }
  state := { before.state with hostCalls := calls', sink := sink' }
  layout := before.layout

theorem Sound.counted (sound : before.Sound survey) {calls calls' : Nat} {sink sink' : Sink}
    (sameCalls : calls' = calls) (sameSink : sink' = sink) :
    before.Grows survey names (before.counted calls calls' sink sink') := by
  have growth : before.Extends (before.counted calls calls' sink sink') :=
    ⟨.refl _, Nat.le_refl _, fun _ _ => rfl, fun _ _ _ placed => placed⟩
  exact ⟨growth, { sound with
    stored := sound.stored_grow growth
    fielded := sound.fielded_grow growth
    hostCalls := sameCalls
    sink := sameSink }, rfl, rfl, fun _ _ _ held free => absurd free held⟩

/-! ## Bound names -/

/-- A name that has a cell gets a value. -/
def assigned (before : Coupling) (scope : ScopeRef) (name : String) (cell : Nat)
    (value : Value) : Coupling where
  machine := { before.machine with store := before.machine.store.define scope name value }
  state := { before.state with cells := before.state.cells.setIfInBounds cell value.erased }
  layout := before.layout

/-- A global name gets a value. -/
def assignedGlobal (before : Coupling) (name : String) (value : Value) : Coupling where
  machine := { before.machine with store := before.machine.store.define globalScope name value }
  state := { before.state with globals := before.state.globals.set name value.erased }
  layout := before.layout

theorem extends_assigned (before : Coupling) (scope : ScopeRef) {name : String}
    (ordinary : IsOrdinaryName name) (cell : Nat) (value : Value) :
    before.Extends (before.assigned scope name cell value) :=
  ⟨.define _ scope ordinary value, Nat.le_refl _, fun _ _ => rfl, fun _ _ _ placed => placed⟩

theorem extends_assignedGlobal (before : Coupling) {name : String}
    (ordinary : IsOrdinaryName name) (value : Value) :
    before.Extends (before.assignedGlobal name value) :=
  ⟨.define _ globalScope ordinary value, Nat.le_refl _, fun _ _ => rfl,
    fun _ _ _ placed => placed⟩

/-- What a scope holds once a name in it has a value. -/
theorem get?_define {store : Store} {scope other : ScopeRef} {name text : String}
    {value found : Value}
    (held : ((store.define scope name value).scope other).get? text = some found) :
    (other = scope ∧ text = name ∧ found = value) ∨
      ((store.scope other).get? text = some found ∧
        (scope.index < store.scopes.size → ¬ (other = scope ∧ text = name))) := by
  rw [Store.scope_define] at held
  split at held
  · next here =>
      rw [Bindings.get?_set] at held
      split at held
      · next same =>
          cases held
          exact .inl ⟨here.1, same.symm, rfl⟩
      · next different =>
          rw [← here.1] at held
          exact .inr ⟨held, fun _ both => different both.2.symm⟩
  · next elsewhere =>
      exact .inr ⟨held, fun inside both => elsewhere ⟨both.1, inside⟩⟩

theorem Sound.assigned (sound : before.Sound survey) {scope : ScopeRef} {name : String}
    {cell : Nat} (placed : before.layout scope name = some cell) (ordinary : IsOrdinaryName name)
    {value : Value} (held : (before.assigned scope name cell value).Holds survey value) :
    before.Grows survey names (before.assigned scope name cell value) := by
  have growth := before.extends_assigned scope ordinary cell value
  obtain ⟨inBounds, local_, allocated⟩ := sound.placed scope name cell placed
  refine ⟨growth, { sound with
    globals := Nat.lt_of_lt_of_le sound.globals growth.store.size
    stored := ?stored
    fielded := sound.fielded_grow growth
    global := ?global
    cell := ?cell
    known := ?known
    placed := ?placed }, rfl, rfl, fun _ _ _ held free => absurd free held⟩
  case stored =>
    intro other text found bound
    rcases get?_define bound with ⟨-, -, rfl⟩ | ⟨earlier, -⟩
    · exact held
    · exact sound.stored_grow growth other text found earlier
  case global =>
    refine sound.global.trans (congrArg _ ?_)
    exact ((Store.scope_define ..).trans (if_neg fun both => local_ both.1.symm)).symm
  case cell =>
    intro other text place found placedThere bound
    change (before.state.cells.setIfInBounds cell value.erased)[place]? = some found.erased
    rcases get?_define bound with ⟨rfl, rfl, rfl⟩ | ⟨earlier, other_⟩
    · have same : place = cell := Option.some.inj (placedThere.symm.trans placed)
      rw [same, Array.getElem?_setIfInBounds_self_of_lt inBounds]
    · have different : cell ≠ place := by
        rintro rfl
        exact other_ allocated (sound.apart _ _ _ _ _ placedThere placed)
      rw [Array.getElem?_setIfInBounds_ne different]
      exact sound.cell other text place found placedThere earlier
  case known =>
    intro other text found inside bound
    rcases get?_define bound with ⟨rfl, rfl, rfl⟩ | ⟨earlier, -⟩
    · exact Option.ne_none_iff_exists'.mpr ⟨cell, placed⟩
    · exact sound.known other text found inside earlier
  case placed =>
    intro other text place placedThere
    obtain ⟨bounds, inside, there⟩ := sound.placed other text place placedThere
    refine ⟨?_, inside, ?_⟩
    · simpa [Coupling.assigned] using bounds
    · exact Nat.lt_of_lt_of_le there growth.store.size

theorem Sound.assignedGlobal (sound : before.Sound survey) {name : String}
    (ordinary : IsOrdinaryName name) {value : Value}
    (held : (before.assignedGlobal name value).Holds survey value) :
    before.Grows survey names (before.assignedGlobal name value) := by
  have growth := before.extends_assignedGlobal ordinary value
  refine ⟨growth, { sound with
    globals := Nat.lt_of_lt_of_le sound.globals growth.store.size
    stored := ?stored
    fielded := sound.fielded_grow growth
    global := ?global
    cell := ?cell
    known := ?known
    placed := ?placed }, rfl, rfl, fun _ _ _ held free => absurd free held⟩
  case stored =>
    intro other text found bound
    rcases get?_define bound with ⟨-, -, rfl⟩ | ⟨earlier, -⟩
    · exact held
    · exact sound.stored_grow growth other text found earlier
  case global =>
    change before.state.globals.set name value.erased = _
    rw [sound.global, ← Bindings.map_set]
    refine congrArg _ ?_
    exact ((Store.scope_define ..).trans (if_pos ⟨rfl, sound.globals⟩)).symm
  case cell =>
    intro other text place found placedThere bound
    rcases get?_define bound with ⟨rfl, -, -⟩ | ⟨earlier, -⟩
    · exact absurd rfl (sound.placed _ _ _ placedThere).2.1
    · exact sound.cell other text place found placedThere earlier
  case known =>
    intro other text found inside bound
    rcases get?_define bound with ⟨rfl, -, -⟩ | ⟨earlier, -⟩
    · exact absurd rfl inside
    · exact sound.known other text found inside earlier
  case placed =>
    intro other text place placedThere
    obtain ⟨bounds, inside, there⟩ := sound.placed other text place placedThere
    exact ⟨bounds, inside, Nat.lt_of_lt_of_le there growth.store.size⟩

/-! ## Declared names -/

/-- A name of a scope gets a fresh cell. The machine knows nothing of it yet. -/
def declared (before : Coupling) (scope : ScopeRef) (name : String) : Coupling where
  machine := before.machine
  state := { before.state with cells := before.state.cells.push .nil }
  layout := fun other text =>
    if other = scope ∧ text = name then some before.state.cells.size else before.layout other text

theorem Sound.declared (sound : before.Sound survey) {scope : ScopeRef}
    {name : String} (free : before.layout scope name = none) (local_ : scope ≠ globalScope)
    (allocated : scope.index < before.machine.store.scopes.size)
    (innermost : before.machine.environment.head? = some scope) (inside : name ∈ names) :
    before.Grows survey names (before.declared scope name) := by
  have growth : before.Extends (before.declared scope name) := by
    refine ⟨.refl _, Nat.le_refl _, fun _ _ => rfl, ?_⟩
    intro other text cell placed
    refine (if_neg ?_).trans placed
    rintro ⟨rfl, rfl⟩
    exact absurd (placed.symm.trans free) (by simp)
  refine ⟨growth, { sound with
    stored := sound.stored_grow growth
    fielded := sound.fielded_grow growth
    cell := ?cell
    known := ?known
    placed := ?placed
    apart := ?apart }, rfl, rfl, ?kept⟩
  case cell =>
    intro other text place found placedThere bound
    change (if _ then _ else _) = _ at placedThere
    split at placedThere
    · next here =>
        obtain ⟨rfl, rfl⟩ := here
        exact absurd free (sound.known other text found local_ bound)
    · have held := sound.cell other text place found placedThere bound
      obtain ⟨bounds, -⟩ := sound.placed other text place placedThere
      exact (Array.getElem?_push_lt bounds).trans
        ((Array.getElem?_eq_getElem bounds).symm.trans held)
  case known =>
    intro other text found inside bound
    obtain ⟨place, placedThere⟩ :=
      Option.ne_none_iff_exists'.mp (sound.known other text found inside bound)
    exact Option.ne_none_iff_exists'.mpr ⟨place, growth.layout other text place placedThere⟩
  case placed =>
    intro other text place placedThere
    change (if _ then _ else _) = _ at placedThere
    have size : (before.declared scope name).state.cells.size = before.state.cells.size + 1 :=
      Array.size_push _
    split at placedThere
    · next here =>
        cases placedThere
        rw [here.1]
        exact ⟨size ▸ Nat.lt_succ_self _, local_, allocated⟩
    · obtain ⟨bounds, inside, there⟩ := sound.placed other text place placedThere
      exact ⟨size ▸ Nat.lt_succ_of_lt bounds, inside, there⟩
  case apart =>
    -- The new cell lies behind all others, so no other name can have it.
    intro one other name' text place first second
    change (if _ then _ else _) = _ at first second
    split at first
    · next here =>
        cases first
        split at second
        · next there => exact ⟨here.1.trans there.1.symm, here.2.trans there.2.symm⟩
        · exact absurd (sound.placed _ _ _ second).1 (Nat.lt_irrefl _)
    · split at second
      · cases second
        exact absurd (sound.placed _ _ _ first).1 (Nat.lt_irrefl _)
      · exact sound.apart _ _ _ _ _ first second
  case kept =>
    intro other text _ held freeThere
    change (if _ then _ else _) ≠ none at held
    split at held
    · next here => exact ⟨here.1 ▸ innermost, here.2 ▸ inside⟩
    · exact absurd freeThere held

/-! ## New scopes -/

/-- A new scope with bindings, and cells for the names in it. -/
def opened (before : Coupling) (bindings : Bindings Value) (values : Array Value)
    (own : String → Option Nat) : Coupling where
  machine := { before.machine with store := (before.machine.store.addScope bindings).2 }
  state := { before.state with cells := before.state.cells ++ values }
  layout := fun scope name =>
    if scope.index = before.machine.store.scopes.size then own name else before.layout scope name

/-- Bindings for a new scope whose names have fresh cells of their own. -/
structure Opening (survey : Survey) (before : Coupling) (bindings : Bindings Value)
    (values : Array Value) (own : String → Option Nat) : Prop where
  range : ∀ name cell, own name = some cell →
    before.state.cells.size ≤ cell ∧ cell < before.state.cells.size + values.size
  apart : ∀ name name' cell, own name = some cell → own name' = some cell → name = name'
  holds : ∀ name value, bindings.get? name = some value → before.Holds survey value
  cell : ∀ name value, bindings.get? name = some value →
    ∃ cell, own name = some cell ∧ (before.state.cells ++ values)[cell]? = some value.erased

/-- What a scope holds once there is a new one. -/
theorem get?_addScope {store : Store} {bindings : Bindings Value} {other : ScopeRef}
    {text : String} {found : Value}
    (held : ((store.addScope bindings).2.scope other).get? text = some found) :
    (other.index = store.scopes.size ∧ bindings.get? text = some found) ∨
      (other.index ≠ store.scopes.size ∧ (store.scope other).get? text = some found) := by
  rw [Store.scope_addScope] at held
  split at held
  · next here => exact .inl ⟨here, held⟩
  · next elsewhere => exact .inr ⟨elsewhere, held⟩

theorem Sound.opened (sound : before.Sound survey) {bindings : Bindings Value}
    {values : Array Value} {own : String → Option Nat}
    (opening : Opening survey before bindings values own) :
    before.Grows survey names (before.opened bindings values own) := by
  have growth : before.Extends (before.opened bindings values own) := by
    refine ⟨.addScope _ bindings, Nat.le_refl _, fun _ _ => rfl, ?_⟩
    intro other text cell placed
    exact (if_neg (Nat.ne_of_lt (sound.placed other text cell placed).2.2)).trans placed
  have size : (before.opened bindings values own).machine.store.scopes.size =
      before.machine.store.scopes.size + 1 := Array.size_push _
  refine ⟨growth, { sound with
    globals := Nat.lt_of_lt_of_le sound.globals growth.store.size
    stored := ?stored
    fielded := sound.fielded_grow growth
    global := ?global
    cell := ?cell
    known := ?known
    placed := ?placed
    apart := ?apart }, rfl, rfl, ?kept⟩
  case stored =>
    intro other text found bound
    rcases get?_addScope bound with ⟨-, here⟩ | ⟨-, earlier⟩
    · exact (opening.holds text found here).grow growth
    · exact sound.stored_grow growth other text found earlier
  case global =>
    refine sound.global.trans (congrArg _ ?_)
    exact ((Store.scope_addScope ..).trans (if_neg (Nat.ne_of_lt sound.globals))).symm
  case cell =>
    intro other text place found placedThere bound
    change (if _ then _ else _) = _ at placedThere
    rcases get?_addScope bound with ⟨here, fresh⟩ | ⟨elsewhere, earlier⟩
    · rw [if_pos here] at placedThere
      obtain ⟨cell, placed, held⟩ := opening.cell text found fresh
      cases placed.symm.trans placedThere
      exact held
    · rw [if_neg elsewhere] at placedThere
      obtain ⟨bounds, -⟩ := sound.placed other text place placedThere
      exact (Array.getElem?_append_left bounds).trans
        (sound.cell other text place found placedThere earlier)
  case known =>
    intro other text found inside bound
    change (if _ then _ else _) ≠ none
    rcases get?_addScope bound with ⟨here, fresh⟩ | ⟨elsewhere, earlier⟩
    · obtain ⟨cell, placed, -⟩ := opening.cell text found fresh
      rw [if_pos here, placed]
      simp
    · rw [if_neg elsewhere]
      exact sound.known other text found inside earlier
  case placed =>
    intro other text place placedThere
    change (if _ then _ else _) = _ at placedThere
    have cells : (before.opened bindings values own).state.cells.size =
        before.state.cells.size + values.size := Array.size_append
    rw [cells, size]
    split at placedThere
    · next here =>
        refine ⟨(opening.range text place placedThere).2, ?_, here ▸ Nat.lt_succ_self _⟩
        rintro rfl
        exact Nat.ne_of_lt sound.globals here
    · obtain ⟨bounds, inside, there⟩ := sound.placed other text place placedThere
      exact ⟨Nat.lt_of_lt_of_le bounds (Nat.le_add_right _ _), inside, Nat.lt_succ_of_lt there⟩
  case apart =>
    -- The cells of the new scope lie behind those of all others.
    intro one other name text place first second
    change (if _ then _ else _) = _ at first second
    split at first
    · next here =>
        split at second
        · next there =>
            exact ⟨congrArg ScopeRef.mk (here.trans there.symm),
              opening.apart name text place first second⟩
        · exact absurd (sound.placed _ _ _ second).1 (Nat.not_lt.mpr (opening.range _ _ first).1)
    · split at second
      · exact absurd (sound.placed _ _ _ first).1 (Nat.not_lt.mpr (opening.range _ _ second).1)
      · exact sound.apart _ _ _ _ _ first second
  case kept =>
    intro other text there held free
    change (if _ then _ else _) ≠ none at held
    rw [if_neg (Nat.ne_of_lt there)] at held
    exact absurd free held

/-- The names in a new scope. -/
theorem Matches.opened {scopes : List (Bindings Readiness)} {outer : Environment}
    {around : Names} {bindings : Bindings Value} {values : Array Value}
    {own : String → Option Nat} {scope : Bindings Readiness} {cells : Bindings Nat}
    (matching : before.Matches scopes outer around) (sound : before.Sound survey)
    (opening : Opening survey before bindings values own)
    (bound : ∀ name, scope.get? name = some .ready → bindings.contains name = true)
    (here : ∀ name, scope.contains name = true →
      ∃ cell, own name = some cell ∧ cells.get? name = some cell)
    (others : ∀ name, scope.contains name = false → cells.get? name = around.cell? name) :
    (before.opened bindings values own).Matches (scope :: scopes)
      ((before.machine.store.addScope bindings).1 :: outer) (some cells) := by
  have grows : before.Grows survey [] (before.opened bindings values own) := sound.opened opening
  apply Matches.inside _ _ _ _ others (matching.grow grows.toExtends)
  · intro same
    exact Nat.ne_of_gt sound.globals (congrArg ScopeRef.index same)
  · exact (Array.size_push _).symm ▸ Nat.lt_succ_self _
  · intro name ready
    refine (congrArg (Bindings.contains · name) ?_).trans (bound name ready)
    exact (Store.scope_addScope ..).trans (if_pos rfl)
  · intro name held
    obtain ⟨cell, placed, found⟩ := here name held
    exact ⟨cell, (if_pos rfl).trans placed, found⟩

/-! ## Functions and instances -/

/-- A fresh identity, with names that are captured under it. -/
def capturing (before : Coupling) (captures : Names) : Coupling where
  machine := { before.machine with nextIdentity := before.machine.nextIdentity + 1 }
  state := { before.state with captured := before.state.captured.push captures }
  layout := before.layout

theorem Sound.capturing (sound : before.Sound survey) (captures : Names) :
    before.Grows survey names (before.capturing captures) := by
  have growth : before.Extends (before.capturing captures) := by
    refine ⟨.refl _, Nat.le_succ _, ?_, fun _ _ _ placed => placed⟩
    intro identity below
    rw [← sound.captured] at below
    exact (Array.getElem?_push_lt below).trans (Array.getElem?_eq_getElem below).symm
  exact ⟨growth, { sound with
    stored := sound.stored_grow growth
    fielded := sound.fielded_grow growth
    captured := (Array.size_push _).trans (congrArg (· + 1) sound.captured) },
    rfl, rfl, fun _ _ _ held free => absurd free held⟩

/-- What was captured last. -/
theorem Sound.namesOf_capturing (sound : before.Sound survey) (captures : Names)
    {closure : Closure} (own : closure.identity = before.machine.nextIdentity) :
    (before.capturing captures).state.namesOf closure = captures := by
  have last : (before.state.captured.push captures)[closure.identity]? = some captures := by
    rw [own, ← sound.captured, Array.getElem?_push_size]
  unfold State.namesOf
  exact congrArg (Option.getD · none) last

/-- A new instance without fields. -/
def instantiated (before : Coupling) : Coupling where
  machine := { before.machine with store := before.machine.store.addInstance.2 }
  state := { before.state with fields := before.state.fields.push .empty }
  layout := before.layout

theorem Sound.instantiated (sound : before.Sound survey) :
    before.Grows survey names before.instantiated := by
  have growth : before.Extends before.instantiated :=
    ⟨.of_scopes rfl, Nat.le_refl _, fun _ _ => rfl, fun _ _ _ placed => placed⟩
  refine ⟨growth, { sound with
    stored := sound.stored_grow growth
    fielded := ?fielded
    fields := ?fields }, rfl, rfl, fun _ _ _ held free => absurd free held⟩
  case fielded =>
    intro reference text found bound
    change (before.machine.store.addInstance.2.fieldsOf reference).get? text = some found at bound
    rw [Store.fieldsOf_addInstance] at bound
    split at bound
    · cases bound
    · exact sound.fielded_grow growth reference text found bound
  case fields =>
    change before.state.fields.push .empty = (before.machine.store.fields.push .empty).map _
    rw [Array.map_push, sound.fields]
    rfl

theorem map_modify (fields : Array (Bindings Value)) (index : Nat) (name : String)
    (value : Value) :
    (fields.modify index fun bindings => bindings.set name value).map (Bindings.map Value.erased) =
      (fields.map (Bindings.map Value.erased)).modify index fun bindings =>
        bindings.set name value.erased := by
  apply Array.ext_getElem?
  intro other
  simp only [Array.getElem?_modify, Array.getElem?_map]
  cases fields[other]? with
  | none => simp
  | some bindings => by_cases same : index = other <;> simp [same, Bindings.map_set]

/-- A field gets a value. -/
def withField (before : Coupling) (reference : InstanceRef) (name : String) (value : Value) :
    Coupling where
  machine := { before.machine with store := before.machine.store.setField reference name value }
  state := { before.state with
    fields := before.state.fields.modify reference.index fun bindings =>
      bindings.set name value.erased }
  layout := before.layout

theorem Sound.withField (sound : before.Sound survey) (reference : InstanceRef) (name : String)
    {value : Value} (held : before.Holds survey value) :
    before.Grows survey names (before.withField reference name value) := by
  have growth : before.Extends (before.withField reference name value) :=
    ⟨.of_scopes rfl, Nat.le_refl _, fun _ _ => rfl, fun _ _ _ placed => placed⟩
  refine ⟨growth, { sound with
    stored := sound.stored_grow growth
    fielded := ?fielded
    fields := ?fields }, rfl, rfl, fun _ _ _ held free => absurd free held⟩
  case fielded =>
    intro other text found bound
    change ((before.machine.store.setField reference name value).fieldsOf other).get? text =
      some found at bound
    rw [Store.fieldsOf_setField] at bound
    split at bound
    · rw [Bindings.get?_set] at bound
      split at bound
      · cases bound
        exact held.grow growth
      · exact sound.fielded_grow growth _ text found bound
    · exact sound.fielded_grow growth other text found bound
  case fields =>
    refine Eq.trans ?_ (map_modify before.machine.store.fields reference.index name value).symm
    rw [← sound.fields]
    rfl

end Lox.Lexical.Coupling
