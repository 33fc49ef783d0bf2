import Lox.Proofs.Lexical.Steps

/-!
# Scopes, functions and classes side by side

Wherever the machine opens a scope, the direct evaluator makes a cell for each
name in it. The names of a declaration, in turn, have their cell before the machine
binds them.
-/

namespace Lox.Lexical

variable {survey : Survey} {declared : List String} {before : Coupling}
variable {scopes : List (Bindings Readiness)} {names : Names}

/-! ## Declarations -/

/-- A declared name is in the innermost scope, ready or not. -/
theorem contains_declare {analysis : Analysis} {name : Token} {scope : Bindings Readiness}
    {outer : List (Bindings Readiness)} (shape : (analysis.declare name).scopes = scope :: outer) :
    scope.contains name.lexeme = true := by
  unfold Analysis.declare at shape
  cases around : analysis.scopes with
  | nil =>
      rw [around] at shape
      cases around.symm.trans shape
  | cons first rest =>
      rw [around] at shape
      dsimp only at shape
      split at shape
      · next taken =>
          cases around.symm.trans shape
          exact taken
      · cases shape
        simp [Bindings.contains_set]

theorem contains_declaring {text : String} {scopes : List (Bindings Readiness)}
    {scope : Bindings Readiness} {outer : List (Bindings Readiness)}
    (shape : declaring [text] scopes = scope :: outer) : scope.contains text = true := by
  cases scopes with
  | nil => cases shape
  | cons first rest =>
      cases shape
      exact Environment.Fits.contains_of_mem (.head _)

/-- A name that is declared and then made ready is ready. -/
theorem declaring_declare (analysis : Analysis) (name : Token) :
    declaring [name.lexeme] (analysis.declare name).scopes =
      declaring [name.lexeme] analysis.scopes := by
  unfold Analysis.declare
  cases around : analysis.scopes with
  | nil => rw [around]
  | cons scope outer =>
      dsimp only
      split
      · rw [Analysis.report, around]
      · rw [declaring_single, declaring_single, Bindings.set_set]

/-- A name that is put into the innermost scope is pending there, and has a cell of its
own. -/
theorem matches_declared {scope : Bindings Readiness} {reference : ScopeRef} {outer : Environment}
    {cells : Bindings Nat} {name : String}
    (matching : before.Matches (scope :: scopes) (reference :: outer) (some cells))
    (grows : before.Extends (before.declared reference name)) :
    (before.declared reference name).Matches (scope.set name .pending :: scopes)
      (reference :: outer) (some (cells.set name before.state.cells.size)) := by
  cases matching with
  | inside apart allocated bound own others around =>
      refine .inside apart allocated ?bound ?own ?others (around.grow grows)
      case bound =>
        intro text ready
        rw [Bindings.get?_set] at ready
        split at ready
        · cases ready
        · exact bound text ready
      case own =>
        intro text held
        rw [Bindings.contains_set, Bool.or_eq_true, decide_eq_true_eq] at held
        rw [Bindings.get?_set]
        split
        · next same => exact ⟨_, if_pos ⟨rfl, same.symm⟩, rfl⟩
        · next different =>
            obtain ⟨cell, placed, owned⟩ := own text (held.resolve_left different)
            exact ⟨cell, grows.layout _ _ _ placed, owned⟩
      case others =>
        intro text absent
        rw [Bindings.contains_set, Bool.or_eq_false_iff, decide_eq_false_iff_not] at absent
        rw [Bindings.get?_set, if_neg absent.1]
        exact others text absent.2

/-- A name is declared before the machine binds it. -/
theorem declares_ahead (sound : before.Sound survey) {analysis : Analysis}
    (stands : before.Stands analysis.scopes names) {name : Token}
    (clean : (analysis.declare name).faults = []) (inside : name.lexeme ∈ declared) :
    ∃ after names', declare names name.lexeme before.state = .ok names' after.state ∧
      after.machine = before.machine ∧ before.Grows survey declared after ∧
      after.Matches (analysis.declare name).scopes after.machine.environment names' := by
  have matching := stands.matching
  have tight := stands.tight
  unfold Analysis.declare at clean ⊢
  generalize shape : analysis.scopes = scopes at matching tight clean
  generalize around : before.machine.environment = environment at matching tight
  cases matching with
  | outside =>
      refine ⟨before, none, rfl, rfl, sound.grows, ?_⟩
      dsimp only
      rw [shape, around]
      exact .outside
  | @inside scope scopes reference outer earlier cells apart allocated bound own others beyond =>
      dsimp only at clean ⊢
      split at clean
      · exact absurd clean report_faults_ne_nil
      · next unseen =>
          have free : before.layout reference name.lexeme = none := by
            by_contra placed
            exact unseen (tight scope scopes reference outer rfl rfl name.lexeme placed)
          have grows : before.Grows survey declared (before.declared reference name.lexeme) :=
            sound.declared free apart allocated (by rw [around]; rfl) inside
          refine ⟨before.declared reference name.lexeme,
            some (cells.set name.lexeme before.state.cells.size), rfl, rfl, grows, ?_⟩
          rw [if_neg unseen, grows.environment, around]
          exact matches_declared (.inside apart allocated bound own others beyond) grows.toExtends

/-! ## New scopes -/

/-- The cell of a name among cells that are made one after another. Of several
with one name the last counts. -/
def cellOf (size : Nat) : List String → String → Option Nat
  | [], _ => none
  | first :: rest, name =>
      (cellOf (size + 1) rest name).or (if first = name then some size else none)

theorem cellOf_range {size cell : Nat} {texts : List String} {name : String}
    (found : cellOf size texts name = some cell) :
    size ≤ cell ∧ cell < size + texts.length := by
  induction texts generalizing size with
  | nil => cases found
  | cons first rest ih =>
      rw [cellOf, Option.or_eq_some_iff] at found
      rw [List.length_cons]
      rcases found with later | ⟨-, here⟩
      · have range := ih later
        omega
      · split at here
        · cases here
          omega
        · cases here

theorem cellOf_apart {size cell : Nat} {texts : List String} {one other : String}
    (first : cellOf size texts one = some cell) (second : cellOf size texts other = some cell) :
    one = other := by
  induction texts generalizing size with
  | nil => cases first
  | cons text rest ih =>
      rw [cellOf, Option.or_eq_some_iff] at first second
      rcases first with later | ⟨-, here⟩
      · rcases second with laterToo | ⟨-, hereToo⟩
        · exact ih later laterToo
        · split at hereToo
          · cases hereToo
            exact absurd (cellOf_range later).1 (Nat.not_succ_le_self _)
          · cases hereToo
      · split at here
        · next same =>
            cases here
            rcases second with laterToo | ⟨-, hereToo⟩
            · exact absurd (cellOf_range laterToo).1 (Nat.not_succ_le_self _)
            · split at hereToo
              · next sameToo => exact same.symm.trans sameToo
              · cases hereToo
        · cases here

theorem cellOf_isSome {size : Nat} {texts : List String} {name : String}
    (inside : name ∈ texts) : ∃ cell, cellOf size texts name = some cell := by
  induction texts generalizing size with
  | nil => cases inside
  | cons first rest ih =>
      rw [cellOf]
      by_cases later : name ∈ rest
      · obtain ⟨cell, found⟩ := ih later
        exact ⟨cell, by rw [found]; rfl⟩
      · cases found : cellOf (size + 1) rest name with
        | some cell => exact ⟨cell, rfl⟩
        | none =>
            have same : first = name := ((List.mem_cons.mp inside).resolve_right later).symm
            exact ⟨size, if_pos same⟩

theorem cellOf_none {size : Nat} {texts : List String} {name : String}
    (outside : name ∉ texts) : cellOf size texts name = none := by
  induction texts generalizing size with
  | nil => rfl
  | cons first rest ih =>
      rw [List.mem_cons, not_or] at outside
      rw [cellOf, ih outside.2, if_neg (Ne.symm outside.1)]
      rfl

/-- What is bound last under a name is in the cell of that name. -/
theorem cellOf_bound (size : Nat) {entries : List (String × Value)} {bindings : Bindings Value}
    {name : String} {value : Value}
    (bound : (entries.foldl (fun bindings entry => bindings.set entry.1 entry.2) bindings).get?
      name = some value) :
    (∃ index, cellOf size (entries.map Prod.fst) name = some (size + index) ∧
        (entries.map Prod.snd)[index]? = some value) ∨
      (cellOf size (entries.map Prod.fst) name = none ∧ bindings.get? name = some value) := by
  induction entries generalizing size bindings with
  | nil => exact .inr ⟨rfl, bound⟩
  | cons first rest ih =>
      rcases ih (size + 1) bound with ⟨index, later, held⟩ | ⟨absent, here⟩
      · refine .inl ⟨index + 1, ?_, held⟩
        rw [List.map_cons, cellOf, later, Nat.add_assoc, Nat.add_comm 1]
        rfl
      · rw [List.map_cons, cellOf, absent]
        rw [Bindings.get?_set] at here
        split at here
        · next same => exact .inl ⟨0, if_pos same, here⟩
        · next different => exact .inr ⟨if_neg different, here⟩

/-- Bindings for a new scope, one after another. -/
theorem opening_entries {entries : List (String × Value)}
    (held : ∀ entry ∈ entries, before.Holds survey entry.2) :
    Coupling.Opening survey before
      (entries.foldl (fun bindings entry => bindings.set entry.1 entry.2) .empty)
      (entries.map fun entry => entry.2.erased).toArray
      (cellOf before.state.cells.size (entries.map Prod.fst)) := by
  constructor
  · intro name cell found
    simpa using cellOf_range found
  · exact fun name name' cell => cellOf_apart
  · intro name value bound
    rcases cellOf_bound 0 bound with ⟨index, -, found⟩ | ⟨-, none⟩
    · obtain ⟨entry, inside, rfl⟩ := List.mem_map.mp (List.mem_of_getElem? found)
      exact held entry inside
    · cases none
  · intro name value bound
    rcases cellOf_bound before.state.cells.size bound with ⟨index, cell, found⟩ | ⟨-, none⟩
    · refine ⟨_, cell, ?_⟩
      rw [Array.getElem?_append_right (Nat.le_add_right ..), Nat.add_sub_cancel_left,
        List.getElem?_toArray]
      rw [List.getElem?_map] at found ⊢
      obtain ⟨entry, there, rfl⟩ := Option.map_eq_some_iff.mp found
      rw [there]
      rfl
    · cases none

theorem bindParameters_eq (entries : List (Token × Value)) (cells : Bindings Nat)
    (state : State) : ∃ cells',
      bindParameters entries (some cells) state = .ok (some cells')
        { state with cells := state.cells ++ (entries.map Prod.snd).toArray } ∧
      ∀ name, cells'.get? name =
        (cellOf state.cells.size (entries.map fun entry => entry.1.lexeme) name).or
          (cells.get? name) := by
  induction entries generalizing cells state with
  | nil => exact ⟨cells, by simp [bindParameters]; rfl, fun name => rfl⟩
  | cons first rest ih =>
      obtain ⟨cells', ran, found⟩ := ih (cells.set first.1.lexeme state.cells.size)
        { state with cells := state.cells.push first.2 }
      refine ⟨cells', ?_, ?_⟩
      · refine Eq.trans (b := bindParameters rest (some (cells.set first.1.lexeme state.cells.size))
          { state with cells := state.cells.push first.2 }) rfl (ran.trans ?_)
        simp
      · intro name
        rw [found, List.map_cons, cellOf, Array.size_push, Option.or_assoc, Bindings.get?_set]
        congr 1
        by_cases same : first.1.lexeme = name <;> simp [same]

/-- All names that were bound one after another are bound. -/
theorem contains_entries {entries : List (String × Value)} {bindings : Bindings Value}
    {name : String} (inside : name ∈ entries.map Prod.fst ∨ bindings.contains name = true) :
    (entries.foldl (fun bindings entry => bindings.set entry.1 entry.2) bindings).contains name =
      true := by
  induction entries generalizing bindings with
  | nil => exact inside.resolve_left (by simp)
  | cons first rest ih =>
      apply ih
      rw [List.map_cons, List.mem_cons, or_assoc] at inside
      rcases inside with here | later | earlier
      · exact .inr (by rw [Bindings.contains_set, here]; simp)
      · exact .inl later
      · exact .inr (by rw [Bindings.contains_set, earlier, Bool.or_true])

/-- A new scope holds what is given to it. -/
theorem simulates_newScope (sound : before.Sound survey) {outer : Environment}
    (matching : before.Matches scopes outer names) {entries : List (Token × Value)}
    (held : ∀ entry ∈ entries, before.Holds survey entry.2) :
    Simulates survey declared before
      (Run.newScope outer (entries.foldl
        (fun bindings entry => bindings.set entry.1.lexeme entry.2) .empty))
      (bindParameters (entries.map fun entry => (entry.1, entry.2.erased)) names.enter)
      fun after inner names' =>
        after.Matches
          (declaring (entries.map fun entry => entry.1.lexeme) (.empty :: scopes)) inner names' ∧
        ∃ reference, inner = reference :: outer ∧
          before.machine.store.scopes.size ≤ reference.index ∧
          ∀ name, after.layout reference name ≠ none →
            name ∈ entries.map fun entry => entry.1.lexeme := by
  have heldHere (entry : String × Value)
      (inside : entry ∈ entries.map fun entry => (entry.1.lexeme, entry.2)) :
      before.Holds survey entry.2 := by
    obtain ⟨given, member, rfl⟩ := List.mem_map.mp inside
    exact held given member
  have opening := opening_entries heldHere
  have bound (name : String) (inside : name ∈ entries.map fun entry => entry.1.lexeme) :
      (entries.foldl (fun (bindings : Bindings Value) entry =>
        bindings.set entry.1.lexeme entry.2) .empty).contains name = true := by
    have all : name ∈ (entries.map fun entry => (entry.1.lexeme, entry.2)).map Prod.fst := by
      rwa [List.map_map]
    rw [← List.foldl_map (f := fun entry : Token × Value => (entry.1.lexeme, entry.2))
      (g := fun (bindings : Bindings Value) entry => bindings.set entry.1 entry.2)]
    exact contains_entries (.inl all)
  obtain ⟨cells', ran, found⟩ := bindParameters_eq
    (entries.map fun entry => (entry.1, entry.2.erased)) (names.getD .empty) before.state
  simp only [List.foldl_map, List.map_map, Function.comp_def] at opening ran found
  have grows : before.Grows survey declared (before.opened _ _ _) := sound.opened opening
  unfold Simulates Names.enter
  rw [ran]
  refine .ok grows ⟨?_, _, rfl, Nat.le_refl _, ?_⟩
  · apply matching.opened sound opening
    -- What is declared in the new scope is exactly what is given to it.
    · intro name ready
      rcases Environment.Fits.ready_of_declared _ ready with inside | none
      · exact bound name inside
      · cases none
    · intro name contained
      have declared := ((contains_declared _ _ name).mp contained).resolve_right (by simp)
      obtain ⟨cell, here⟩ := cellOf_isSome declared
      exact ⟨cell, here, by rw [found, here]; rfl⟩
    · intro name outside
      have absent : name ∉ entries.map fun entry => entry.1.lexeme := by
        intro inside
        rw [Environment.Fits.contains_of_mem inside] at outside
        cases outside
      rw [found, cellOf_none absent]
      cases names <;> rfl
  · intro name placed
    by_contra absent
    exact placed ((if_pos rfl).trans (cellOf_none absent))

/-- The same coupling with the machine in another environment. -/
def Coupling.within (coupling : Coupling) (environment : Environment) : Coupling :=
  { coupling with machine := { coupling.machine with environment := environment } }

theorem Coupling.extends_within (coupling : Coupling) (environment : Environment) :
    coupling.Extends (coupling.within environment) :=
  ⟨.refl _, Nat.le_refl _, fun _ _ => rfl, fun _ _ _ placed => placed⟩

theorem Coupling.Sound.within {coupling : Coupling} (sound : coupling.Sound survey)
    (environment : Environment) : (coupling.within environment).Sound survey := by
  have growth := coupling.extends_within environment
  refine ⟨sound.globals, ?_, ?_, sound.plain, sound.blind, sound.host, sound.hostCalls,
    sound.sink, sound.captured, sound.fields, sound.global, sound.cell, sound.known, sound.placed,
    sound.apart⟩
  · exact fun scope name found bound => (sound.stored scope name found bound).grow growth
  · exact fun reference name found bound => (sound.fielded reference name found bound).grow growth

section Within

variable {α β : Type} {step : Run α} {action : Action β} {related : Coupling → α → β → Prop}
variable {inner : Environment} {extra : List String}

/-- What happens inside of another environment concerns new scopes only, so it
declares nothing outside. -/
theorem Coupling.Grows.leave {after : Coupling} (fresh : ∀ reference,
      inner.head? = some reference → extra ≠ [] →
        before.machine.store.scopes.size ≤ reference.index)
    {middle : Coupling} (front : before.Grows survey [] middle)
    (grows : (middle.within inner).Grows survey extra after) :
    before.Grows survey declared (after.within before.machine.environment) := by
  have growth : middle.Extends after := (middle.extends_within inner).trans grows.toExtends
  refine ⟨(front.toExtends.trans growth).trans (after.extends_within _), grows.sound.within _, rfl,
    grows.distances.trans front.distances, ?_⟩
  intro scope name allocated placed free
  by_cases between : middle.layout scope name = none
  · have there := Nat.lt_of_lt_of_le allocated front.store.size
    obtain ⟨innermost, inside⟩ := grows.kept scope name there placed between
    have beyond := fresh scope innermost (List.ne_nil_of_mem inside)
    exact absurd allocated (Nat.not_lt.mpr beyond)
  · obtain ⟨-, inside⟩ := front.kept scope name allocated between free
    cases inside

/-- A step in a new scope. -/
theorem Simulates.scoped {outer : Environment} {bindings : Bindings Value}
    {bindNames : Action Names} {next : Names → Action β}
    {opened : Coupling → Environment → Names → Prop}
    (front : Simulates survey [] before (Run.newScope outer bindings) bindNames opened)
    (fresh : ∀ after inner names', opened after inner names' → ∀ reference,
      inner.head? = some reference → before.machine.store.scopes.size ≤ reference.index)
    (back : ∀ after inner names', before.Grows survey [] after → opened after inner names' →
      Simulates survey extra (after.within inner) step (next names') related)
    (lasts : ∀ (after : Coupling) value value', related after value value' →
      related (after.within before.machine.environment) value value') :
    Simulates survey declared before
      (Run.newScope outer bindings >>= fun inner => Run.within inner step)
      (bindNames >>= next) related := by
  unfold Simulates at *
  change Coupling.Outcome survey declared before related
    (EStateM.bind (Run.newScope outer bindings) (fun inner => Run.within inner step)
      before.machine) (EStateM.bind bindNames next before.state)
  unfold EStateM.bind
  generalize Run.newScope outer bindings before.machine = result,
    bindNames before.state = result' at front
  cases front with
  | error grows => exact .error (grows.weaken (List.nil_subset _))
  | @ok inner names' middle grows holds =>
      have rest := back _ _ _ grows holds
      dsimp only
      unfold Run.within
      change Coupling.Outcome survey extra (middle.within inner) related
        (step { middle.machine with environment := inner }) (next names' middle.state) at rest
      generalize step { middle.machine with environment := inner } = last,
        next names' middle.state = last' at rest
      have back := fresh middle inner names' holds
      have home := grows.environment
      cases rest with
      | @error halt after growsOn =>
          have left : before.Grows survey declared (after.within before.machine.environment) :=
            .leave (fun reference head _ => back reference head) grows growsOn
          dsimp only
          rw [home]
          exact .error left
      | @ok value value' after growsOn results =>
          have left : before.Grows survey declared (after.within before.machine.environment) :=
            .leave (fun reference head _ => back reference head) grows growsOn
          dsimp only
          rw [home]
          exact .ok left (lasts _ _ _ results)

/-- A step in another environment that declares nothing there. -/
theorem Simulates.within
    (simulates : Simulates survey [] (before.within inner) step action related)
    (sound : before.Sound survey)
    (lasts : ∀ (after : Coupling) value value', related after value value' →
      related (after.within before.machine.environment) value value') :
    Simulates survey declared before (Run.within inner step) action related := by
  unfold Simulates Run.within at *
  change Coupling.Outcome survey [] (before.within inner) related
    (step { before.machine with environment := inner }) (action before.state) at simulates
  generalize step { before.machine with environment := inner } = last,
    action before.state = last' at simulates
  cases simulates with
  | error growsOn => exact .error (.leave (fun _ _ some => absurd rfl some) sound.grows growsOn)
  | ok growsOn results =>
      exact .ok (.leave (fun _ _ some => absurd rfl some) sound.grows growsOn)
        (lasts _ _ _ results)

end Within

end Lox.Lexical
