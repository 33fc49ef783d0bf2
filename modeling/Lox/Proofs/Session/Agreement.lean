import Lox.Proofs.Binding.Keywords
import Lox.Proofs.Session.History

/-!
# Distances agree with environments

Where a machine stands at a visit, its environment has one scope for each scope
that the analysis had there, and the globals behind them. So the scope at a noted
distance is there, and it is a local one. As a rule it also binds the name already.
-/

namespace Lox

/-! ## Links of an environment -/

/-- An environment has a number of links between itself and the globals. -/
def Environment.Links (environment : Environment) (links : Nat) : Prop :=
  ∃ locals, environment = locals ++ globalEnvironment ∧ globalScope ∉ locals ∧
    locals.length = links

namespace Environment

variable {environment : Environment} {store : Store} {count distance : Nat}
variable {scopes : List (Bindings Readiness)} {loose : List (List String)}

/-- An environment consists of its links and the global scope. -/
theorem Links.length (linked : environment.Links count) : environment.length = count + 1 := by
  obtain ⟨locals, rfl, -, rfl⟩ := linked
  simp [globalEnvironment]

/-- Going out by less than the number of links ends at a local scope. -/
theorem Links.ancestor (linked : environment.Links count) (less : distance < count) :
    ∃ scope outer, environment.ancestor? distance = some (scope :: outer) ∧
      scope ≠ globalScope := by
  obtain ⟨locals, rfl, apart, rfl⟩ := linked
  have shorter : distance < (locals ++ globalEnvironment).length := by
    rw [List.length_append]
    omega
  refine ⟨locals[distance], locals.drop (distance + 1) ++ globalEnvironment, ?_, ?_⟩
  · rw [ancestor?, if_pos shorter, List.drop_append_of_le_length (Nat.le_of_lt less),
      List.drop_eq_getElem_cons less, List.cons_append]
  · intro same
    exact apart (same ▸ List.getElem_mem less)

theorem Fits.links (fits : Fits store scopes loose environment) :
    environment.Links scopes.length := by
  induction fits with
  | globals => exact ⟨[], rfl, by simp, rfl⟩
  | @inside _ _ _ _ reference _ apart _ _ _ _ ih =>
      obtain ⟨locals, rfl, outside, length⟩ := ih
      refine ⟨reference :: locals, rfl, ?_, by simp [length]⟩
      rw [List.mem_cons, not_or]
      exact ⟨apart.symm, outside⟩

end Environment

theorem Survey.Stands.links {survey : Survey} {machine : Machine} {visit : Visit}
    (stands : survey.Stands machine visit) :
    machine.environment.Links visit.analysis.scopes.length := by
  cases stands with
  | inside _ fits => exact Environment.Fits.links fits
  | superclass _ fits =>
      rw [Analysis.scopes_atSuperclass, length_declaring]
      exact Environment.Fits.links fits

/-! ## Distances at a visit -/

/-- The use of a name that an expression is. -/
def Node.reference? : Node → Option Reference
  | .expr (.variable reference) => some reference
  | .expr (.assign reference _) => some reference
  | .expr (.this reference) => some reference
  | .expr (.super reference _) => some reference
  | _ => none

theorem Node.mem_numbers_of_reference {node : Node} {reference : Reference}
    (use : node.reference? = some reference) : reference.id ∈ node.numbers := by
  cases node with
  | stmt statement => cases use
  | expr value =>
      cases value with
      | «variable» | assign | this | super =>
          cases use
          simp [numbers]
      | _ => cases use

/-- A use of a name is bound to the nearest scope that has it. -/
theorem Visit.Accepted.distance {final : Distances} {visit : Visit} {reference : Reference}
    (accepted : visit.Accepted final) (use : visit.node.reference? = some reference) :
    final.get? reference.id = nearest visit.analysis.scopes reference.name.lexeme := by
  obtain ⟨node, analysis, loose⟩ := visit
  cases node with
  | stmt statement => cases use
  | expr value =>
      cases value with
      | «variable» => cases use; exact accepted.variable.1
      | assign => cases use; exact accepted.assign
      | this => cases use; exact accepted.this
      | super => cases use; exact accepted.super.1
      | _ => cases use

theorem lt_of_nearest {scopes : List (Bindings Readiness)} {name : String} {distance : Nat}
    (found : nearest scopes name = some distance) : distance < scopes.length := by
  obtain ⟨less, _⟩ := List.findIdx?_eq_some_iff_getElem.mp found
  exact less

/-! ## Names bound in time -/

/-- A use of a name in the scope at a distance may come before the declaration of
the name is executed: in the initial value of that very variable, or behind a
loop that declares it as the bare part of another statement. -/
def Visit.MayPrecede (visit : Visit) (name : String) (distance : Nat) : Prop :=
  visit.analysis.isPending name = true ∨
    ∃ names, visit.loose[distance]? = some names ∧ name ∈ names

/-- In an environment that fits some scopes a name is bound in the scope at its
distance, unless it is not ready there or may be left unbound. -/
theorem Environment.Fits.bound {store : Store} {scopes : List (Bindings Readiness)}
    {loose : List (List String)} {environment : Environment} {name : String} {distance : Nat}
    (fits : Fits store scopes loose environment)
    (ready : ∀ scope, scopes[distance]? = some scope → scope.get? name = some .ready)
    (kept : ∀ names, loose[distance]? = some names → name ∉ names)
    (less : distance < scopes.length) :
    ∃ reference, environment.scopeAt? distance = some reference ∧ reference ≠ globalScope ∧
      (store.scope reference).contains name = true := by
  induction fits generalizing distance with
  | globals => exact absurd less (Nat.not_lt_zero _)
  | @inside scope scopes names loose reference outer apart _ bound _ _ ih =>
      cases distance with
      | zero =>
          have here := bound name (ready scope rfl) (kept names rfl)
          exact ⟨reference, rfl, apart, here⟩
      | succ further => exact ih ready kept (Nat.lt_of_succ_lt_succ less)

/-- Where a machine stands, a name that is used is bound in the scope at its
distance, unless it may be used too early. -/
theorem Survey.Stands.bound {survey : Survey} {machine : Machine} {visit : Visit}
    {final : Distances} {reference : Reference} {distance : Nat}
    (stands : survey.Stands machine visit)
    (accepted : ∀ visit, survey.visited visit → visit.Accepted final)
    (use : visit.node.reference? = some reference)
    (noted : final.get? reference.id = some distance)
    (settled : ¬ visit.MayPrecede reference.name.lexeme distance) :
    ∃ scope, machine.environment.scopeAt? distance = some scope ∧ scope ≠ globalScope ∧
      (machine.store.scope scope).contains reference.name.lexeme = true := by
  have found := (accepted visit stands.visited).distance use
  rw [noted] at found
  obtain ⟨awake, tight⟩ := not_or.mp settled
  have kept (names : List String) (there : visit.loose[distance]? = some names) :
      reference.name.lexeme ∉ names := fun inside => tight ⟨names, there, inside⟩
  cases stands with
  | inside visited fits =>
      apply Environment.Fits.bound fits _ kept (lt_of_nearest found.symm)
      obtain ⟨node, analysis, loose⟩ := visit
      cases node with
      | stmt statement => cases use
      | expr value =>
          have ready : AllReady analysis.scopes.tail := (accepted _ visited).ready
          exact fun scope here => ready_of_nearest ready (by simpa using awake) found.symm here
  | @superclass name _ methods around loose visited fits =>
      cases use
      -- The name of the class is no use of the superclass, so it does not matter
      -- that only the analysis has it by now.
      have different := (accepted _ (survey.contains visited .superclass)).ne_superclass
      rw [Analysis.scopes_atSuperclass,
        nearest_declaring_of_not_mem (by simpa using different)] at found
      apply Environment.Fits.bound fits _ kept (lt_of_nearest found.symm)
      have ready : AllReady around.scopes := (accepted _ visited).ready
      have settledAround : around.isPending reference.name.lexeme = false := by
        unfold Analysis.isPending
        cases shape : around.scopes with
        | nil => rfl
        | cons scope outer =>
            have own := ready scope (by simp [shape]) reference.name.lexeme
            simpa using own
      exact fun scope here => ready_of_nearest ready.tail settledAround found.symm here

/-! ## Reading and assigning -/

section Bound

variable {machine : Machine} {reference : Reference} {distance : Nat} {scope : ScopeRef}

theorem Run.read_bound (noted : machine.distances.get? reference.id = some distance)
    (there : machine.environment.scopeAt? distance = some scope)
    (bound : (machine.store.scope scope).contains reference.name.lexeme = true) :
    ∃ value, Run.read reference machine = .ok value machine := by
  obtain ⟨value, found⟩ := Option.isSome_iff_exists.mp bound
  refine ⟨value, Run.bind_ok.mpr ⟨machine, machine, rfl, ?_⟩⟩
  simp only [noted, Environment.lookupAt?, there, Option.bind_some, found]
  rfl

theorem Run.read_eq (reference : Reference) (machine : Machine) :
    Run.read reference machine =
      Run.orFail (match machine.distances.get? reference.id with
        | some distance =>
            machine.environment.lookupAt? machine.store distance reference.name.lexeme
        | none => globalEnvironment.lookup? machine.store reference.name.lexeme)
        (.variableAt reference.name) machine := rfl

theorem Run.read_unbound (noted : machine.distances.get? reference.id = some distance)
    (there : machine.environment.scopeAt? distance = some scope)
    (unbound : (machine.store.scope scope).get? reference.name.lexeme = none) :
    Run.read reference machine = .error (.fault (.variableAt reference.name)) machine := by
  rw [Run.read_eq]
  simp only [noted, Environment.lookupAt?, there, Option.bind_some, unbound]
  rfl

theorem Run.write_bound (noted : machine.distances.get? reference.id = some distance)
    (there : machine.environment.scopeAt? distance = some scope) (value : Value) :
    Run.write reference value machine =
      .ok () { machine with store := machine.store.define scope reference.name.lexeme value } := by
  refine Run.bind_ok.mpr ⟨machine, machine, rfl, Run.bind_ok.mpr ⟨scope, machine, ?_, rfl⟩⟩
  simp only [Run.target?, noted, there]
  rfl

end Bound

/-- A machine that stands at an assignment grows while the new value is
computed. -/
theorem Survey.Stands.grows_assign {survey : Survey} {machine after : Machine} {visit : Visit}
    {reference : Reference} {value : Expr} {limit : Nat} {result : Value}
    (stands : survey.Stands machine visit) (sound : machine.Sound survey)
    (shape : visit.node = .expr (.assign reference value))
    (ran : evaluate limit value machine = .ok result after) : machine.Grows survey after := by
  cases stands with
  | inside visited fits =>
      obtain ⟨node, analysis, loose⟩ := visit
      cases shape
      have part := survey.contains visited .assigned
      exact (((preserves_all survey limit).evaluate part sound fits).of_ok ran).1
  | superclass _ _ => cases shape

/-- In a block of two statements the run comes to the second one behind the first. -/
theorem Moment.occurs_second {limit : Nat} {first : Stmt} {value : Expr} {inner : Environment}
    {machine opened after : Machine}
    (entered : Run.newScope machine.environment .empty machine = .ok inner opened)
    (ran : Flow.sequence (execute (limit + 1)) [first] { opened with environment := inner } =
      .ok .normal after) :
    Moment.Occurs (limit + 2) [.block [first, .expression value]] machine
      ⟨limit, .node (.expr value), after⟩ := by
  have member : Enters
      ⟨limit + 2, .node (.stmt (.block ([first] ++ .expression value :: []))), machine⟩
      ⟨limit + 1, .node (.stmt (.expression value)), after⟩ := .member entered ran
  exact ⟨_, _, .here, (Relation.ReflTransGen.single member).tail .effect⟩

/-- In a block that declares one variable the run comes to what is in the initial
value. -/
theorem Moment.occurs_initializer {limit : Nat} {name : Token} {value : Expr}
    {inner : Environment} {machine opened : Machine}
    (entered : Run.newScope machine.environment .empty machine = .ok inner opened) :
    Moment.Occurs (limit + 3) [.block [.var name (some (.grouping value))]] machine
      ⟨limit, .node (.expr value), { opened with environment := inner }⟩ := by
  have member : Enters
      ⟨limit + 3, .node (.stmt (.block ([] ++ .var name (some (.grouping value)) :: []))), machine⟩
      ⟨limit + 2, .node (.stmt (.var name (some (.grouping value)))),
        { opened with environment := inner }⟩ := .member entered rfl
  exact ⟨_, _, .here, ((Relation.ReflTransGen.single member).tail .initializer).tail .grouping⟩

namespace Session

variable {time : Native → Nat → Except String Float} {policy : SinkPolicy}
variable {past : List (Nat × String)} {steps : Nat} {source : String} {moment : Moment}

/-- A session whose clock does not tell the time. -/
def silent : Session :=
  Session.start (Host.ofTime fun _ _ => .error "no time") .unlimited

theorem reads_use :
    (match (readProgram "{ var a; a; }" 0).1 with
    | .ok [.block [.var name none, .expression (.variable reference)]] =>
        let result := bindProgram [.block [.var name none, .expression (.variable reference)]]
          .empty
        result.1.isEmpty && result.2.get? reference.id == some 0
    | _ => false) = true := by
  decide +kernel

/-- A block with a declaration and a use of what it declares. -/
theorem accepts_use : ∃ name reference,
    silent.Accepts "{ var a; a; }"
      [.block [.var name none, .expression (.variable reference)]] ∧
    (silent.bound [.block [.var name none, .expression (.variable reference)]]).distances.get?
      reference.id = some 0 := by
  have checked := reads_use
  split at checked
  · next name reference read =>
      simp only [Bool.and_eq_true, List.isEmpty_iff, beq_iff_eq] at checked
      exact ⟨name, reference, ⟨read, checked.1⟩, checked.2⟩
  · cases checked

/-- The moment at which the variable is used. -/
theorem occurs_use : ∃ name reference machine,
    silent.Accepts "{ var a; a; }"
      [.block [.var name none, .expression (.variable reference)]] ∧
    silent.Occurs [] 9 "{ var a; a; }" ⟨7, .node (.expr (.variable reference)), machine⟩ ∧
    machine.distances.get? reference.id = some 0 := by
  obtain ⟨name, reference, accepts, noted⟩ := accepts_use
  exact ⟨name, reference, _, accepts, ⟨_, accepts, Moment.occurs_second rfl rfl⟩, noted⟩

/-- A local name that is used in a session is bound in the scope at its distance,
unless it may be used too early. So reading it yields a value, and assigning to
it replaces a value and binds no name anew. -/
theorem bound_where_used (time : Native → Nat → Except String Float) (policy : SinkPolicy)
    {visit : Visit} {reference : Reference} {distance : Nat}
    (occurs : (Session.start (Host.ofTime time) policy).Occurs past steps source moment)
    (visited : (Session.start (Host.ofTime time) policy).Visited (past ++ [(steps, source)]) visit)
    (evaluated : moment.activity = .node visit.node)
    (use : visit.node.reference? = some reference)
    (noted : moment.machine.distances.get? reference.id = some distance)
    (settled : ¬ visit.MayPrecede reference.name.lexeme distance) :
    ∃ scope, moment.machine.environment.scopeAt? distance = some scope ∧ scope ≠ globalScope ∧
      (moment.machine.store.scope scope).contains reference.name.lexeme = true ∧
      (visit.node = .expr (.variable reference) → ∀ limit, ∃ value,
        Lox.evaluate (limit + 1) (.variable reference) moment.machine = .ok value moment.machine) ∧
      ∀ value limit result after, visit.node = .expr (.assign reference value) →
        Lox.evaluate limit value moment.machine = .ok result after →
        (after.store.scope scope).contains reference.name.lexeme = true ∧
        Lox.evaluate (limit + 1) (.assign reference value) moment.machine =
          .ok result { after with
            store := after.store.define scope reference.name.lexeme result } ∧
        ∀ other, ((after.store.define scope reference.name.lexeme result).scope other).names =
          (after.store.scope other).names := by
  obtain ⟨⟨sound, _, stands⟩, accepted⟩ := occurs.sound rfl (sound_start _ time policy)
  rw [evaluated] at stands
  obtain ⟨analysis, loose, stands⟩ := stands
  have number : reference.id ∈ visit.node.numbers := Node.mem_numbers_of_reference use
  have same := visited.unique (settled_start time policy) stands.visited rfl number
  rw [← same] at stands
  obtain ⟨scope, there, apart, bound⟩ := stands.bound accepted use noted settled
  refine ⟨scope, there, apart, bound, ?_, ?_⟩
  · intro shape limit
    rw [Lox.evaluate]
    exact Run.read_bound noted there bound
  · intro value limit result after shape ran
    have grows := stands.grows_assign sound shape ran
    have kept := grows.store.bound scope _ bound
    rw [← grows.environment] at there
    rw [← grows.distances] at noted
    refine ⟨kept, ?_, Store.names_define result kept⟩
    rw [Lox.evaluate]
    exact Run.bind_ok.mpr ⟨result, after, ran,
      Run.bind_ok.mpr ⟨(), _, Run.write_bound noted there result, rfl⟩⟩

theorem bound_where_used_use : ∃ moment visit reference,
    silent.Occurs [] 9 "{ var a; a; }" moment ∧ silent.Visited [(9, "{ var a; a; }")] visit ∧
    moment.activity = .node visit.node ∧ visit.node.reference? = some reference ∧
    moment.machine.distances.get? reference.id = some 0 ∧
    ¬ visit.MayPrecede reference.name.lexeme 0 ∧
    ∃ scope, moment.machine.environment.scopeAt? 0 = some scope ∧ scope ≠ globalScope ∧
      (moment.machine.store.scope scope).contains reference.name.lexeme = true := by
  obtain ⟨name, reference, machine, accepts, occurs, noted⟩ := occurs_use
  have block : silent.Visited [(9, "{ var a; a; }")]
      ⟨.stmt (.block ([.var name none] ++ .expression (.variable reference) :: [])),
        Analysis.stmts [] (.start .empty), []⟩ :=
    ⟨[], 9, _, [], _, rfl, accepts, [], _, [], rfl, .refl⟩
  have visited := (block.contains .member).contains .effect
  have settled := ((settled_start _ .unlimited _).accepted _ visited).variable.2
  have timely : ¬ Visit.MayPrecede ⟨.expr (.variable reference),
      Analysis.stmts [.var name none] (Analysis.stmts [] (.start .empty)).openScope, [[]]⟩
      reference.name.lexeme 0 := by
    rintro (pending | ⟨names, here, inside⟩)
    · simp [settled] at pending
    · cases here
      cases inside
  obtain ⟨scope, there, apart, bound, _⟩ :=
    bound_where_used _ .unlimited occurs visited rfl rfl noted timely
  exact ⟨_, _, reference, occurs, visited, rfl, rfl, noted, timely, scope, there, apart, bound⟩

theorem reads_bareLoop :
    (match (readProgram "{ if (false) for (var i; false; ) {} i; }" 0).1 with
    | .ok [.block [.conditional (.literal (.bool false))
        (.forLoop (some (.var name none)) condition none (.block [])) none,
        .expression (.variable reference)]] =>
        let result := bindProgram [.block [.conditional (.literal (.bool false))
          (.forLoop (some (.var name none)) condition none (.block [])) none,
          .expression (.variable reference)]] .empty
        result.1.isEmpty && result.2.get? reference.id == some 0
    | _ => false) = true := by
  decide +kernel

/-- A block in which a loop that is left out declares a name that is used behind
it. -/
theorem accepts_bareLoop : ∃ condition name reference,
    silent.Accepts "{ if (false) for (var i; false; ) {} i; }"
      [.block [.conditional (.literal (.bool false))
        (.forLoop (some (.var name none)) condition none (.block [])) none,
        .expression (.variable reference)]] ∧
    (silent.bound [.block [.conditional (.literal (.bool false))
      (.forLoop (some (.var name none)) condition none (.block [])) none,
      .expression (.variable reference)]]).distances.get? reference.id = some 0 := by
  have checked := reads_bareLoop
  split at checked
  · next name condition reference read =>
      simp only [Bool.and_eq_true, List.isEmpty_iff, beq_iff_eq] at checked
      exact ⟨condition, name, reference, ⟨read, checked.1⟩, checked.2⟩
  · cases checked

theorem reads_ownInitializer :
    (match (readProgram "{ var a = (a = nil); }" 0).1 with
    | .ok [.block [.var name (some (.grouping (.assign reference (.literal .nil))))]] =>
        let result := bindProgram [.block [.var name (some (.grouping
          (.assign reference (.literal .nil))))]] .empty
        result.1.isEmpty && result.2.get? reference.id == some 0
    | _ => false) = true := by
  decide +kernel

/-- A block in which a name is assigned to in its own initial value. -/
theorem accepts_ownInitializer : ∃ name reference,
    silent.Accepts "{ var a = (a = nil); }"
      [.block [.var name (some (.grouping (.assign reference (.literal .nil))))]] ∧
    (silent.bound [.block [.var name (some (.grouping
      (.assign reference (.literal .nil))))]]).distances.get? reference.id = some 0 := by
  have checked := reads_ownInitializer
  split at checked
  · next name reference read =>
      simp only [Bool.and_eq_true, List.isEmpty_iff, beq_iff_eq] at checked
      exact ⟨name, reference, ⟨read, checked.1⟩, checked.2⟩
  · cases checked

/-- Local names that are used too early are not bound: one declared by a loop that
is left out, which cannot be read, and one assigned to in its own initial value,
which the assignment binds. -/
theorem unbound_where_used_early :
    (∃ moment reference,
      silent.Occurs [] 9 "{ if (false) for (var i; false; ) {} i; }" moment ∧
      moment.activity = .node (.expr (.variable reference)) ∧
      moment.machine.distances.get? reference.id = some 0 ∧
      (¬ ∃ scope, moment.machine.environment.scopeAt? 0 = some scope ∧
        (moment.machine.store.scope scope).contains reference.name.lexeme = true) ∧
      Run.read reference moment.machine =
        .error (.fault (.variableAt reference.name)) moment.machine) ∧
    ∃ moment reference value,
      silent.Occurs [] 9 "{ var a = (a = nil); }" moment ∧
      moment.activity = .node (.expr (.assign reference value)) ∧
      moment.machine.distances.get? reference.id = some 0 ∧
      ¬ ∃ scope, moment.machine.environment.scopeAt? 0 = some scope ∧
        (moment.machine.store.scope scope).contains reference.name.lexeme = true := by
  constructor
  · obtain ⟨condition, name, reference, accepts, noted⟩ := accepts_bareLoop
    refine ⟨_, reference, ⟨_, accepts, Moment.occurs_second rfl rfl⟩, rfl, noted, ?_, ?_⟩
    · rintro ⟨scope, there, bound⟩
      cases there
      cases bound
    · exact Run.read_unbound noted rfl rfl
  · obtain ⟨name, reference, accepts, noted⟩ := accepts_ownInitializer
    refine ⟨_, reference, _, ⟨_, accepts, Moment.occurs_initializer rfl⟩, rfl, noted, ?_⟩
    rintro ⟨scope, there, bound⟩
    cases there
    cases bound

end Session

end Lox
