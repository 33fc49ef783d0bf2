import Lox.Evaluation.Machine

/-!
# Walking outward and going straight

A name can be looked up by walking outward to the nearest scope that binds it, or by
going straight to the scope at a distance. Where the distance is the least one at which
the name is bound, both find the same value and both change the same binding, which is
then seen from every environment with that scope in it.

This is said of all environments that can be made, in any order, with any bindings and
assignments in between. Such environments share scopes, but each scope has one chain of
scopes around it, and the chain comes to an end.
-/

namespace Lox

/-! ## Reading and writing -/

namespace Run

/-- The value of a name in the nearest scope that binds it. -/
def readFrom (environment : Environment) (name : Token) : Run Value := do
  orFail (environment.lookup? (← get).store name.lexeme) (.variableAt name)

/-- The value of a name in the scope at a distance. -/
def readAt (environment : Environment) (distance : Nat) (name : Token) : Run Value := do
  orFail (environment.lookupAt? (← get).store distance name.lexeme) (.variableAt name)

/-- Give a name a new value in the nearest scope that binds it. -/
def writeFrom (environment : Environment) (name : Token) (value : Value) : Run Unit := do
  let store ← orFail (environment.assign? (← get).store name.lexeme value) (.variableAt name)
  modifyStore fun _ => store

/-- Give a name a new value in the scope at a distance. -/
def writeAt (environment : Environment) (distance : Nat) (name : Token) (value : Value) :
    Run Unit := do
  let store ←
    orFail (environment.assignAt? (← get).store distance name.lexeme value) (.variableAt name)
  modifyStore fun _ => store

section References

variable {machine : Machine} {reference : Reference} {distance : Nat}

/-- A local name is read at its distance. -/
theorem read_of_noted (noted : machine.distances.get? reference.id = some distance) :
    read reference machine = readAt machine.environment distance reference.name machine := by
  change orFail _ _ machine = orFail _ _ machine
  rw [noted]

/-- Any other name is read among the globals. -/
theorem read_of_unnoted (unnoted : machine.distances.get? reference.id = none) :
    read reference machine = readFrom globalEnvironment reference.name machine := by
  change orFail _ _ machine = orFail _ _ machine
  rw [unnoted]

/-- A local name is written at its distance. -/
theorem write_of_noted (noted : machine.distances.get? reference.id = some distance)
    (value : Value) :
    write reference value machine =
      writeAt machine.environment distance reference.name value machine := by
  change EStateM.bind (orFail (target? reference machine) _) _ machine =
    EStateM.bind (orFail (machine.environment.assignAt? machine.store distance _ value) _) _ machine
  have target : target? reference machine = machine.environment.scopeAt? distance := by
    rw [target?, noted]
  rw [target, Environment.assignAt?]
  cases machine.environment.scopeAt? distance <;> rfl

/-- Any other name is written among the globals. -/
theorem write_of_unnoted (unnoted : machine.distances.get? reference.id = none) (value : Value) :
    write reference value machine =
      writeFrom globalEnvironment reference.name value machine := by
  change EStateM.bind (orFail (target? reference machine) _) _ machine =
    EStateM.bind (orFail (globalEnvironment.assign? machine.store _ value) _) _ machine
  have target : target? reference machine =
      globalEnvironment.binder? machine.store reference.name.lexeme := by
    rw [target?, unnoted]
  rw [target, Environment.assign?]
  cases globalEnvironment.binder? machine.store reference.name.lexeme <;> rfl

end References

end Run

/-! ## The nearest scope -/

namespace Environment

variable {environment : Environment} {store : Store} {name : String} {distance : Nat}

/-- A distance is the least one at which an environment binds a name. -/
structure Nearest (environment : Environment) (store : Store) (name : String) (distance : Nat)
    (scope : ScopeRef) : Prop where
  there : environment.scopeAt? distance = some scope
  bound : (store.scope scope).contains name = true
  least : ∀ closer other, closer < distance → environment.scopeAt? closer = some other →
    (store.scope other).contains name = false

variable {scope : ScopeRef}

/-- A walk outward ends at the least distance. -/
theorem Nearest.binder?_eq (nearest : environment.Nearest store name distance scope) :
    environment.binder? store name = some scope := by
  obtain ⟨there, bound, least⟩ := nearest
  induction environment generalizing distance with
  | nil => cases there
  | cons reference outer ih =>
      unfold binder?
      cases distance with
      | zero =>
          cases there
          rw [List.find?_cons, bound]
      | succ further =>
          rw [List.find?_cons, least 0 reference (Nat.succ_pos further) rfl]
          exact ih there fun closer other less found =>
            least (closer + 1) other (Nat.succ_lt_succ less) found

theorem Nearest.lookup?_eq (nearest : environment.Nearest store name distance scope) :
    environment.lookup? store name = environment.lookupAt? store distance name := by
  rw [Environment.lookup?_eq, nearest.binder?_eq, lookupAt?, nearest.there]

theorem Nearest.assign?_eq (nearest : environment.Nearest store name distance scope)
    (value : Value) :
    environment.assign? store name value = environment.assignAt? store distance name value := by
  rw [assign?, nearest.binder?_eq, assignAt?, nearest.there]

/-- A walk outward that meets no binding has no end but the last scope. -/
theorem binder?_eq_none
    (unbound : ∀ scope ∈ environment, (store.scope scope).contains name = false) :
    environment.binder? store name = none := by
  apply List.find?_eq_none.mpr
  intro scope inside
  simp [unbound scope inside]

end Environment

/-! ## One binding changed -/

/-- A store after one binding of one scope has got another value. -/
structure Store.Rebound (before : Store) (scope : ScopeRef) (name : String) (value : Value)
    (after : Store) : Prop where
  bound : (before.scope scope).contains name = true
  changed : (after.scope scope).get? name = some value
  others : ∀ other text, other ≠ scope ∨ text ≠ name →
    (after.scope other).get? text = (before.scope other).get? text
  names : ∀ other, (after.scope other).names = (before.scope other).names
  size : after.scopes.size = before.scopes.size
  fields : after.fields = before.fields

namespace Store

variable {store : Store} {scope : ScopeRef} {name : String}

/-- Where a name is bound there is a scope. -/
theorem lt_size_of_contains (bound : (store.scope scope).contains name = true) :
    scope.index < store.scopes.size := by
  apply Nat.lt_of_not_le
  intro beyond
  have absent : store.scope scope = .empty := by simp [Store.scope, beyond]
  rw [absent] at bound
  cases bound

theorem rebound_define (bound : (store.scope scope).contains name = true) (value : Value) :
    store.Rebound scope name value (store.define scope name value) := by
  have allocated := lt_size_of_contains bound
  constructor
  · exact bound
  · rw [scope_define, if_pos ⟨rfl, allocated⟩, Bindings.get?_set_self]
  · intro other text apart
    rw [scope_define]
    split
    · next here =>
        have different : name ≠ text := fun same =>
          apart.elim (fun elsewhere => elsewhere here.1) fun renamed => renamed same.symm
        rw [Bindings.get?_set_of_ne _ _ different, here.1]
    · rfl
  · exact names_define value bound
  · exact size_scopes_define store scope name value
  · rfl

/-! ## Environments that can be made -/

/-- A store with the environments that have been made in it: around nothing or inside of
one another, with bindings and assignments in between. An assignment that fails changes
nothing, so it has no part in this. -/
inductive Built : Store → List Environment → Prop where
  | empty : Built .empty []
  | outermost {store : Store} {environments : List Environment} (built : Built store environments) :
      Built (store.addScope .empty).2 ([(store.addScope .empty).1] :: environments)
  | inside {store : Store} {environments : List Environment} {outer : Environment}
      (built : Built store environments) (around : outer ∈ environments) :
      Built (store.addScope .empty).2 (((store.addScope .empty).1 :: outer) :: environments)
  | define {store : Store} {environments : List Environment} {scope : ScopeRef}
      {outer : Environment} (built : Built store environments)
      (among : scope :: outer ∈ environments) (name : String) (value : Value) :
      Built (store.define scope name value) environments
  | assign {store after : Store} {environments : List Environment} {environment : Environment}
      (built : Built store environments) (among : environment ∈ environments) (name : String)
      (value : Value) (assigned : environment.assign? store name value = some after) :
      Built after environments
  | assignAt {store after : Store} {environments : List Environment} {environment : Environment}
      (built : Built store environments) (among : environment ∈ environments) (distance : Nat)
      (name : String) (value : Value)
      (assigned : environment.assignAt? store distance name value = some after) :
      Built after environments

/-- Environments as chains of scopes: each of them ends, since every scope in it is older
than the one before, what is around a scope is an environment again, and there is only
one environment that starts with a given scope. -/
structure Chained (size : Nat) (environments : List Environment) : Prop where
  allocated : ∀ environment ∈ environments, ∀ scope ∈ environment, scope.index < size
  descends : ∀ environment ∈ environments,
    environment.Pairwise fun inner outer => outer.index < inner.index
  around : ∀ environment ∈ environments, ∀ distance < environment.length,
    environment.drop distance ∈ environments
  single : ∀ one ∈ environments, ∀ other ∈ environments, one.head? = other.head? → one = other

namespace Chained

variable {size : Nat} {environments : List Environment} {outer : Environment}

/-- A new scope in front of an environment, or of nothing. -/
theorem extend (chained : Chained size environments) (inside : outer = [] ∨ outer ∈ environments) :
    Chained (size + 1) ((⟨size⟩ :: outer) :: environments) := by
  have below (scope : ScopeRef) (member : scope ∈ outer) : scope.index < size := by
    rcases inside with rfl | inside
    · cases member
    · exact chained.allocated outer inside scope member
  -- No environment made before starts with the new scope.
  have new (environment : Environment) (member : environment ∈ environments) :
      environment.head? ≠ some ⟨size⟩ := by
    intro same
    have less := chained.allocated environment member _ (List.mem_of_head? same)
    exact Nat.lt_irrefl size less
  constructor
  · intro environment member scope within
    rcases List.mem_cons.mp member with rfl | earlier
    · rcases List.mem_cons.mp within with rfl | further
      · exact Nat.lt_succ_self size
      · exact Nat.lt_succ_of_lt (below scope further)
    · exact Nat.lt_succ_of_lt (chained.allocated environment earlier scope within)
  · intro environment member
    rcases List.mem_cons.mp member with rfl | earlier
    · refine List.pairwise_cons.mpr ⟨below, ?_⟩
      rcases inside with rfl | inside
      · exact .nil
      · exact chained.descends outer inside
    · exact chained.descends environment earlier
  · intro environment member distance less
    rcases List.mem_cons.mp member with rfl | earlier
    · cases distance with
      | zero => exact List.mem_cons_self
      | succ further =>
          apply List.mem_cons_of_mem
          rcases inside with rfl | inside
          · exact absurd less (by simp)
          · exact chained.around outer inside further (Nat.lt_of_succ_lt_succ less)
    · exact List.mem_cons_of_mem _ (chained.around environment earlier distance less)
  · intro one first other second same
    rcases List.mem_cons.mp first with rfl | first
    · rcases List.mem_cons.mp second with rfl | second
      · rfl
      · exact absurd same.symm (new other second)
    · rcases List.mem_cons.mp second with rfl | second
      · exact absurd same (new one first)
      · exact chained.single one first other second same

end Chained

/-- Whatever is done with environments, they stay chains of scopes. -/
theorem Built.chained {environments : List Environment} (built : Built store environments) :
    Chained store.scopes.size environments := by
  induction built with
  | empty => constructor <;> simp
  | @outermost store environments _ ih =>
      have alone : Chained _ ([⟨store.scopes.size⟩] :: environments) := ih.extend (.inl rfl)
      simpa [addScope] using alone
  | @inside store environments outer _ around ih =>
      simpa [addScope] using ih.extend (.inr around)
  | define _ _ _ _ ih => simpa using ih
  | assign _ _ _ _ assigned ih =>
      obtain ⟨scope, -, rfl⟩ := Option.map_eq_some_iff.mp assigned
      simpa using ih
  | assignAt _ _ _ _ _ assigned ih =>
      obtain ⟨scope, -, rfl⟩ := Option.map_eq_some_iff.mp assigned
      simpa using ih

end Store

/-! ## Both ways -/

section Walking

variable {machine : Machine} {environments : List Environment} {environment : Environment}

namespace Run

theorem readFrom_of_nearest {name : Token} {distance : Nat} {scope : ScopeRef}
    (nearest : environment.Nearest machine.store name.lexeme distance scope) :
    ∃ value, (machine.store.scope scope).get? name.lexeme = some value ∧
      readFrom environment name machine = .ok value machine ∧
      readAt environment distance name machine = .ok value machine := by
  obtain ⟨value, held⟩ := Option.isSome_iff_exists.mp nearest.bound
  have found : environment.lookupAt? machine.store distance name.lexeme = some value := by
    rw [Environment.lookupAt?, nearest.there, Option.bind_some, held]
  refine ⟨value, held, ?_, ?_⟩
  · change orFail _ _ machine = _
    rw [nearest.lookup?_eq, found]
    rfl
  · change orFail _ _ machine = _
    rw [found]
    rfl

theorem writeFrom_of_nearest {name : Token} {distance : Nat} {scope : ScopeRef}
    (nearest : environment.Nearest machine.store name.lexeme distance scope) (value : Value) :
    writeFrom environment name value machine =
        .ok () { machine with store := machine.store.define scope name.lexeme value } ∧
      writeAt environment distance name value machine =
        .ok () { machine with store := machine.store.define scope name.lexeme value } := by
  have assigned : environment.assignAt? machine.store distance name.lexeme value =
      some (machine.store.define scope name.lexeme value) := by
    rw [Environment.assignAt?, nearest.there, Option.map_some]
  constructor
  · change EStateM.bind (orFail _ _) _ machine = _
    rw [nearest.assign?_eq, assigned]
    rfl
  · change EStateM.bind (orFail _ _) _ machine = _
    rw [assigned]
    rfl

theorem readFrom_of_unbound {name : Token}
    (unbound : ∀ scope ∈ environment, (machine.store.scope scope).contains name.lexeme = false) :
    readFrom environment name machine = .error (.fault (.variableAt name)) machine := by
  change orFail _ _ machine = _
  rw [Environment.lookup?_eq, Environment.binder?_eq_none unbound]
  rfl

theorem writeFrom_of_unbound {name : Token}
    (unbound : ∀ scope ∈ environment, (machine.store.scope scope).contains name.lexeme = false)
    (value : Value) :
    writeFrom environment name value machine = .error (.fault (.variableAt name)) machine := by
  change EStateM.bind (orFail _ _) _ machine = _
  rw [Environment.assign?, Environment.binder?_eq_none unbound]
  rfl

end Run

/-- However environments have been made, bound in and assigned in, each of them is a chain
of scopes that ends, and the one a number of scopes further out is the only one that
starts with its scope. Where a distance is the least one at which an environment binds a
name, walking outward and going straight to that distance find the same value. They also
change the same binding, and no other one, which then has the new value in every
environment that has its scope. Where no scope of an environment binds the name, walking
outward fails on the undefined variable and changes nothing. -/
theorem walking_goes_straight (built : Store.Built machine.store environments)
    (among : environment ∈ environments) (name : Token) :
    (environment.Pairwise fun inner outer => outer.index < inner.index) ∧
    (∀ distance outer, environment.ancestor? distance = some outer → outer ∈ environments ∧
      ∀ other ∈ environments, other.head? = outer.head? → other = outer) ∧
    (∀ distance scope, environment.Nearest machine.store name.lexeme distance scope →
      (∃ value, Run.readFrom environment name machine = .ok value machine ∧
        Run.readAt environment distance name machine = .ok value machine) ∧
      ∀ value, ∃ after,
        Run.writeFrom environment name value machine = .ok () { machine with store := after } ∧
        Run.writeAt environment distance name value machine =
          .ok () { machine with store := after } ∧
        machine.store.Rebound scope name.lexeme value after ∧
        ∀ sharing ∈ environments, ∀ further,
          (sharing.scopeAt? further = some scope →
            sharing.lookupAt? after further name.lexeme = some value) ∧
          (sharing.scopeAt? further ≠ some scope → ∀ text,
            sharing.lookupAt? after further text =
              sharing.lookupAt? machine.store further text)) ∧
    ((∀ scope ∈ environment, (machine.store.scope scope).contains name.lexeme = false) →
      Run.readFrom environment name machine = .error (.fault (.variableAt name)) machine ∧
      ∀ value, Run.writeFrom environment name value machine =
        .error (.fault (.variableAt name)) machine) := by
  have chained := built.chained
  refine ⟨chained.descends environment among, ?_, ?_, fun unbound =>
    ⟨Run.readFrom_of_unbound unbound, Run.writeFrom_of_unbound unbound⟩⟩
  · intro distance outer found
    obtain ⟨less, same⟩ := Option.ite_none_right_eq_some.mp found
    cases same
    have member := chained.around environment among distance less
    exact ⟨member, fun other made same => chained.single other made _ member same⟩
  · intro distance scope nearest
    obtain ⟨found, -, readWalking, readStraight⟩ := Run.readFrom_of_nearest nearest
    refine ⟨⟨found, readWalking, readStraight⟩, fun value => ?_⟩
    obtain ⟨walked, straight⟩ := Run.writeFrom_of_nearest nearest value
    have rebound := Store.rebound_define nearest.bound value
    refine ⟨_, walked, straight, rebound, fun sharing _ further => ⟨?_, ?_⟩⟩
    · intro there
      rw [Environment.lookupAt?, there, Option.bind_some, rebound.changed]
    · intro elsewhere text
      unfold Environment.lookupAt?
      cases there : sharing.scopeAt? further with
      | none => rfl
      | some other =>
          have different : other ≠ scope := fun same => elsewhere (same ▸ there)
          exact rebound.others other text (.inl different)

end Walking

/-- Two scopes inside of one, which binds a name that one of the two binds as well. -/
def Store.forked : Store :=
  ⟨#[Bindings.empty.set "a" .nil, Bindings.empty.set "a" (.bool true), .empty], #[]⟩

theorem Store.built_forked : Built forked [[⟨2⟩, ⟨0⟩], [⟨1⟩, ⟨0⟩], [⟨0⟩]] := by
  have outermost : Built _ [[⟨0⟩]] := .outermost .empty
  have bound := outermost.define List.mem_cons_self "a" .nil
  have inner : Built _ [[⟨1⟩, ⟨0⟩], [⟨0⟩]] := bound.inside List.mem_cons_self
  have shadowed := inner.define List.mem_cons_self "a" (.bool true)
  exact shadowed.inside (List.mem_cons_of_mem _ List.mem_cons_self)

/-- Assigning to a name of the outer scope leaves the inner scope of that name alone. -/
theorem walking_goes_straight_forked :
    ∃ machine : Machine, machine.store = Store.forked ∧
      Store.Built machine.store [[⟨2⟩, ⟨0⟩], [⟨1⟩, ⟨0⟩], [⟨0⟩]] ∧
      Environment.Nearest [⟨2⟩, ⟨0⟩] machine.store "a" 1 ⟨0⟩ ∧
      ∃ after, Run.writeFrom [⟨2⟩, ⟨0⟩] ⟨.identifier, "a", 1⟩ (.bool false) machine =
          .ok () { machine with store := after } ∧
        Environment.lookupAt? [⟨0⟩] after 0 "a" = some (.bool false) ∧
        Environment.lookupAt? [⟨1⟩, ⟨0⟩] after 0 "a" =
          Environment.lookupAt? [⟨1⟩, ⟨0⟩] Store.forked 0 "a" := by
  let machine : Machine := { Machine.start (fun _ _ _ => .ok .nil) .unlimited with
    store := Store.forked }
  have nearest : Environment.Nearest [⟨2⟩, ⟨0⟩] machine.store "a" 1 ⟨0⟩ := by
    refine ⟨rfl, rfl, fun closer other less found => ?_⟩
    cases Nat.lt_one_iff.mp less
    cases found
    rfl
  have built : Store.Built machine.store [[⟨2⟩, ⟨0⟩], [⟨1⟩, ⟨0⟩], [⟨0⟩]] := Store.built_forked
  obtain ⟨-, -, walks, -⟩ :=
    walking_goes_straight built List.mem_cons_self ⟨.identifier, "a", 1⟩
  obtain ⟨-, writes⟩ := walks 1 ⟨0⟩ nearest
  obtain ⟨after, walked, -, -, shared⟩ := writes (.bool false)
  refine ⟨machine, rfl, built, nearest, after, walked, ?_, ?_⟩
  · exact (shared [⟨0⟩] (by simp) 0).1 rfl
  · exact (shared [⟨1⟩, ⟨0⟩] (by simp) 0).2 (by simp [Environment.scopeAt?]) "a"

end Lox
