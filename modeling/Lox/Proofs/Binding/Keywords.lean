import Lox.Proofs.Binding.Visits

/-!
# Names that only classes bind

A program declares neither `this` nor `super`. So the analysis has these names
in the scopes of classes and nowhere else, ready for use and next to each other,
wherever they may be used.
-/

namespace Lox

open Analysis

/-! ## The nearest scope with a name -/

theorem nearest_cons (scope : Bindings Readiness) (scopes : List (Bindings Readiness))
    (name : String) : nearest (scope :: scopes) name =
      if scope.contains name then some 0 else (nearest scopes name).map (· + 1) :=
  List.findIdx?_cons

@[simp] theorem nearest_empty_cons (scopes : List (Bindings Readiness)) (name : String) :
    nearest (.empty :: scopes) name = (nearest scopes name).map (· + 1) := by
  rw [nearest_cons, Bindings.contains_empty]
  rfl

theorem nearest_set (scope : Bindings Readiness) (outer : List (Bindings Readiness))
    (name other : String) (readiness : Readiness) :
    nearest (scope.set name readiness :: outer) other =
      if name = other then some 0 else nearest (scope :: outer) other := by
  rw [nearest_cons, nearest_cons, Bindings.contains_set]
  by_cases same : name = other <;> simp [same]

theorem nearest_declaring_of_not_mem {names : List String} {name : String}
    (outside : name ∉ names) (scopes : List (Bindings Readiness)) :
    nearest (declaring names scopes) name = nearest scopes name := by
  induction names generalizing scopes with
  | nil => rw [declaring_nil]
  | cons first rest ih =>
      rw [List.mem_cons, not_or] at outside
      have split := declaring_append [first] rest scopes
      rw [List.singleton_append] at split
      rw [split, ih outside.2]
      cases scopes with
      | nil => rfl
      | cons scope outer =>
          rw [declaring_single, nearest_set, if_neg (Ne.symm outside.1)]

/-! ## What programs declare -/

mutual

/-- What a statement declares are ordinary names. -/
theorem Stmt.ordinary_declares (statement : Stmt) (placed : statement.Placed) :
    ∀ name ∈ statement.declares, IsOrdinaryName name := by
  intro name inside
  cases statement with
  | expression value => simp [declares] at inside
  | print value => simp [declares] at inside
  | var token initializer =>
      rw [declares, List.mem_singleton] at inside
      exact inside ▸ placed.1
  | block body => simp [declares] at inside
  | conditional condition consequent alternative =>
      rw [declares, List.mem_append] at inside
      rcases inside with here | other
      · exact consequent.ordinary_declares placed.2.1.2 name here
      · exact Stmt.ordinary_optionDeclares alternative
          (fun _ given => (given ▸ placed.2.2 : Stmt.OptionPlaced (some _)).2) name other
  | whileLoop condition body =>
      rw [declares] at inside
      exact body.ordinary_declares placed.2.2 name inside
  | forLoop initializer condition increment body =>
      rw [declares, List.mem_append] at inside
      rcases inside with clause | here
      · exact Stmt.ordinary_optionDeclares initializer
          (fun _ given => (given ▸ placed.1 : Stmt.ClausePlaced (some _)).2) name clause
      · exact body.ordinary_declares placed.2.2.2.2 name here
  | function declaration =>
      obtain ⟨token, parameters, body⟩ := declaration
      rw [declares, List.mem_singleton] at inside
      exact inside ▸ placed.1
  | returning keyword value => simp [declares] at inside
  | classDecl token superclass methods =>
      rw [declares, List.mem_singleton] at inside
      exact inside ▸ placed.1

theorem Stmt.ordinary_optionDeclares (statement : Option Stmt)
    (placed : ∀ given, statement = some given → given.Placed) :
    ∀ name ∈ Stmt.optionDeclares statement, IsOrdinaryName name := by
  intro name inside
  cases statement with
  | none => simp [optionDeclares] at inside
  | some given =>
      rw [optionDeclares] at inside
      exact given.ordinary_declares (placed given rfl) name inside

end

/-- What statements declare are ordinary names. -/
theorem Stmt.ordinary_listDeclares {statements : List Stmt} (placed : Stmt.ListPlaced statements) :
    ∀ name ∈ Stmt.listDeclares statements, IsOrdinaryName name := by
  intro name inside
  obtain ⟨statement, member, here⟩ := List.mem_flatMap.mp inside
  exact statement.ordinary_declares (Stmt.listPlaced_iff.mp placed statement member) name here

/-- `this` and `super` are ready wherever a scope has them, and in a subclass they
are bound in neighbouring scopes. -/
structure Receives (scopes : List (Bindings Readiness)) (enclosure : Enclosure) : Prop where
  awake : ∀ scope ∈ scopes, ∀ name, ¬ IsOrdinaryName name → scope.get? name ≠ some .pending
  object : enclosure ≠ .none → ∃ distance, nearest scopes "this" = some distance
  paired : enclosure = .subclass → ∃ distance, nearest scopes "this" = some distance ∧
    nearest scopes "super" = some (distance + 1)

namespace Receives

variable {scopes : List (Bindings Readiness)} {enclosure : Enclosure}

/-- Outside of everything there is neither. -/
theorem outside : Receives [] .none :=
  ⟨fun _ inside => absurd inside List.not_mem_nil, fun inClass => absurd rfl inClass,
    fun inSubclass => Enclosure.noConfusion inSubclass⟩

theorem openScope (receives : Receives scopes enclosure) :
    Receives (.empty :: scopes) enclosure := by
  constructor
  · intro scope inside name keyword
    rcases List.mem_cons.mp inside with rfl | outer
    · simp
    · exact receives.awake scope outer name keyword
  · intro inClass
    obtain ⟨distance, object⟩ := receives.object inClass
    exact ⟨distance + 1, by simp [object]⟩
  · intro inSubclass
    obtain ⟨distance, object, above⟩ := receives.paired inSubclass
    exact ⟨distance + 1, by simp [object], by simp [above]⟩

theorem declaring (receives : Receives scopes enclosure) {names : List String}
    (ordinary : ∀ name ∈ names, IsOrdinaryName name) :
    Receives (declaring names scopes) enclosure := by
  constructor
  · intro scope inside name keyword
    cases scopes with
    | nil => cases inside
    | cons first outer =>
        rcases List.mem_cons.mp inside with rfl | later
        · intro pending
          have added (names : List String) (scope : Bindings Readiness)
              (awake : scope.get? name ≠ some .pending) :
              (names.foldl (fun scope name => scope.set name .ready) scope).get? name ≠
                some .pending := by
            induction names generalizing scope with
            | nil => exact awake
            | cons text rest ih =>
                apply ih
                rw [Bindings.get?_set]
                split
                · simp
                · exact awake
          exact added names first (receives.awake first (List.mem_cons_self ..) name keyword)
            pending
        · exact receives.awake scope (List.mem_cons_of_mem _ later) name keyword
  · rw [nearest_declaring_of_not_mem fun inside => (ordinary _ inside).1 rfl]
    exact receives.object
  · rw [nearest_declaring_of_not_mem fun inside => (ordinary _ inside).1 rfl,
      nearest_declaring_of_not_mem fun inside => (ordinary _ inside).2 rfl]
    exact receives.paired

/-- A name whose initial value is read. -/
theorem declare {analysis : Analysis} (receives : Receives analysis.scopes enclosure)
    {name : Token} (ordinary : name.IsOrdinary) :
    Receives (analysis.declare name).scopes enclosure := by
  unfold Analysis.declare
  cases around : analysis.scopes with
  | nil =>
      rw [around] at receives
      simpa [around] using receives
  | cons scope outer =>
      rw [around] at receives
      simp only
      split
      · simpa [Analysis.report, around] using receives
      · constructor
        · intro other inside text keyword
          rcases List.mem_cons.mp inside with rfl | later
          · rw [Bindings.get?_set, if_neg]
            · exact receives.awake scope (List.mem_cons_self ..) text keyword
            · exact fun same => keyword (same ▸ ordinary)
          · exact receives.awake other (List.mem_cons_of_mem _ later) text keyword
        · rw [nearest_set, if_neg ordinary.1]
          exact receives.object
        · rw [nearest_set, if_neg ordinary.1, nearest_set, if_neg ordinary.2]
          exact receives.paired

/-- The scopes that a class opens. -/
theorem receiver (receives : Receives scopes enclosure) (superclass : Option Expr) :
    Receives (receiverScopes superclass ++ scopes) (enclosureOf superclass) := by
  have single (text : String) (name : String) :
      (Bindings.empty.set text Readiness.ready).get? name ≠ some .pending := by
    rw [Bindings.get?_set]
    split <;> simp
  constructor
  · intro scope inside name keyword
    rcases List.mem_append.mp inside with own | outer
    · cases superclass with
      | none =>
          rw [receiverScopes, List.mem_singleton] at own
          exact own ▸ single _ _
      | some _ =>
          rw [receiverScopes, List.mem_cons, List.mem_singleton] at own
          rcases own with rfl | rfl
          · exact single _ _
          · exact single _ _
    · exact receives.awake scope outer name keyword
  · intro _
    refine ⟨0, ?_⟩
    cases superclass with
    | none => rw [receiverScopes, List.cons_append, nearest_set, if_pos rfl]
    | some _ => rw [receiverScopes, List.cons_append, nearest_set, if_pos rfl]
  · intro inSubclass
    cases superclass with
    | none => cases inSubclass
    | some _ =>
        refine ⟨0, ?_, ?_⟩
        · rw [receiverScopes, List.cons_append, nearest_set, if_pos rfl]
        · rw [receiverScopes, List.cons_append, nearest_set, if_neg (by decide), nearest_empty_cons,
            List.cons_append, nearest_set, if_pos rfl]
          rfl

/-- From one point of the analysis to another one over ordinary declarations. -/
theorem passes {before after : Analysis} {names : List String} {numbers : List Nat}
    (receives : Receives before.scopes before.enclosure)
    (passes : before.Passes after names numbers)
    (ordinary : ∀ name ∈ names, IsOrdinaryName name) :
    Receives after.scopes after.enclosure := by
  rw [passes.scopes, passes.enclosure]
  exact receives.declaring ordinary

/-- Over a part that declares nothing. -/
theorem behind {before after : Analysis} {numbers : List Nat}
    (receives : Receives before.scopes before.enclosure)
    (passes : before.Passes after [] numbers) : Receives after.scopes after.enclosure :=
  receives.passes passes (by simp)

/-- Behind the parameters of a function. -/
theorem enterFunction {analysis : Analysis} {declaration : FunctionDecl} (body : Body)
    (receives : Receives analysis.scopes analysis.enclosure)
    (placed : declaration.Placed) :
    Receives (analysis.enterFunction declaration body).scopes
      (analysis.enterFunction declaration body).enclosure := by
  apply Receives.passes receives.openScope (passes_enterFunction analysis declaration body)
  intro name inside
  obtain ⟨parameter, member, rfl⟩ := List.mem_map.mp inside
  exact placed.parameters parameter member

end Receives

/-! ## Visits -/

/-- What holds of `this` and `super` at a visit. A superclass is visited as if it
stood in the class, but it is a variable. -/
structure Visit.Guarded (visit : Visit) : Prop where
  receives : (∀ reference, visit.node ≠ .expr (.variable reference)) →
    Receives visit.analysis.scopes visit.analysis.enclosure
  loose : ∀ names ∈ visit.loose, ∀ name ∈ names, IsOrdinaryName name

namespace Visit

/-- More names that may be left unbound. -/
theorem ordinary_passing {names : List String} {loose : List (List String)}
    (ordinary : ∀ name ∈ names, IsOrdinaryName name)
    (earlier : ∀ names ∈ loose, ∀ name ∈ names, IsOrdinaryName name) :
    ∀ scope ∈ passing names loose, ∀ name ∈ scope, IsOrdinaryName name := by
  cases loose with
  | nil => exact fun _ inside => nomatch inside
  | cons first outer =>
      rw [passing, List.forall_mem_cons]
      constructor
      · intro name inside
        rcases List.mem_append.mp inside with before | added
        · exact earlier first (.head _) name before
        · exact ordinary name added
      · exact fun other inside => earlier other (.tail _ inside)

theorem bareNames_subset (statement : Stmt) : statement.bareNames ⊆ statement.declares := by
  cases statement with
  | conditional condition consequent alternative =>
      rw [Stmt.bareNames, Stmt.declares]
      exact List.Subset.refl _
  | whileLoop condition body =>
      rw [Stmt.bareNames, Stmt.declares]
      exact List.Subset.refl _
  | forLoop initializer condition increment body =>
      rw [Stmt.bareNames, Stmt.declares]
      exact List.subset_append_right _ _
  | _ => exact List.nil_subset _

theorem ordinary_listBareNames {statements : List Stmt} (placed : Stmt.ListPlaced statements) :
    ∀ name ∈ Stmt.listBareNames statements, IsOrdinaryName name := by
  intro name inside
  obtain ⟨statement, member, here⟩ := List.mem_flatMap.mp inside
  exact statement.ordinary_declares (Stmt.listPlaced_iff.mp placed statement member) name
    (bareNames_subset statement here)

theorem listPlaced_front {front back : List Stmt} {statement : Stmt}
    (placed : Stmt.ListPlaced (front ++ statement :: back)) : Stmt.ListPlaced front :=
  Stmt.listPlaced_iff.mpr fun other inside =>
    Stmt.listPlaced_iff.mp placed other (List.mem_append_left _ inside)

/-- What holds of `this` and `super` at a statement of a list. -/
theorem guarded_member {analysis : Analysis} {loose : List (List String)} {front back : List Stmt}
    {statement : Stmt} (receives : Receives analysis.scopes analysis.enclosure)
    (earlier : ∀ names ∈ loose, ∀ name ∈ names, IsOrdinaryName name)
    (placed : Stmt.ListPlaced (front ++ statement :: back)) :
    Guarded ⟨.stmt statement, analysis.stmts front, passing (Stmt.listBareNames front) loose⟩ := by
  have placedFront := listPlaced_front placed
  constructor
  · exact fun _ => receives.passes (passes_stmts front analysis)
      (Stmt.ordinary_listDeclares placedFront)
  · exact ordinary_passing (ordinary_listBareNames placedFront) earlier

theorem Contains.guarded {outer inner : Visit} (contains : outer.Contains inner)
    (placed : outer.node.Placed) (guarded : outer.Guarded) : inner.Guarded := by
  have receives : Receives outer.analysis.scopes outer.analysis.enclosure := by
    apply guarded.receives
    rintro reference same
    obtain ⟨node, analysis, loose⟩ := outer
    cases same
    nomatch contains
  have loose := guarded.loose
  have opened : ∀ names ∈ [] :: outer.loose, ∀ name ∈ names, IsOrdinaryName name :=
    List.forall_mem_cons.mpr ⟨by simp, loose⟩
  cases contains with
  | right => exact ⟨fun _ => receives.behind (passes_expr _ _), loose⟩
  | logicalRight => exact ⟨fun _ => receives.behind (passes_expr _ _), loose⟩
  | argument =>
      exact ⟨fun _ => (receives.behind (passes_expr _ _)).behind (passes_exprs _ _), loose⟩
  | changed => exact ⟨fun _ => receives.behind (passes_expr _ _), loose⟩
  | @initializer name value analysis =>
      refine ⟨fun _ => ?_, loose⟩
      rw [(around_declare analysis name).2]
      exact receives.declare placed.1
  | member => exact guarded_member receives.openScope opened placed
  | consequent => exact ⟨fun _ => receives.behind (passes_expr _ _), loose⟩
  | @alternative condition consequent =>
      have ordinary := consequent.ordinary_declares placed.2.1.2
      constructor
      · exact fun _ => (receives.behind (passes_expr _ _)).passes (passes_stmt _ _) ordinary
      · exact ordinary_passing ordinary loose
  | whileBody => exact ⟨fun _ => receives.behind (passes_expr _ _), loose⟩
  | @forRest initializer =>
      have ordinary := initializer.ordinary_declares placed.1.2
      exact ⟨fun _ => receives.passes (passes_stmt _ _) ordinary, loose⟩
  | forIncrement => exact ⟨fun _ => receives.behind (passes_optionalExpr _ _), loose⟩
  | forBody =>
      exact ⟨fun _ => (receives.behind (passes_optionalExpr _ _)).behind (passes_optionalExpr _ _),
        loose⟩
  | @functionBody declaration _ _ _ analysis _ shape =>
      have named := receives.passes (passes_introduce analysis declaration.name)
        (List.forall_mem_singleton.mpr (FunctionDecl.Placed.name placed))
      exact guarded_member (named.enterFunction .function placed) opened
        (shape ▸ FunctionDecl.Placed.body placed)
  | returned => exact ⟨fun _ => receives.behind (passes_checkReturn _ _ _), loose⟩
  | superclass =>
      obtain ⟨reference, rfl⟩ := placed.2.1
      exact ⟨fun plain => absurd rfl (plain reference), loose⟩
  | @methodBody name superclass earlier later method _ _ _ analysis _ shape =>
      have inside := FunctionDecl.listPlaced_iff.mp placed.2.2 method (by simp)
      obtain ⟨_, scopes, _, enclosure⟩ := enterClass_passes analysis name superclass
      have entered : Receives (analysis.enterClass name superclass).scopes
          (analysis.enterClass name superclass).enclosure := by
        rw [scopes, enclosure]
        exact (receives.declaring (List.forall_mem_singleton.mpr placed.1)).receiver superclass
      have behind := entered.behind (passes_methodBodies earlier _)
      apply guarded_member (behind.enterFunction (Analysis.methodBody method.name.lexeme) inside) _
        (shape ▸ inside.body)
      rw [List.cons_append, List.forall_mem_cons]
      refine ⟨by simp, fun names member => ?_⟩
      rcases List.mem_append.mp member with own | around
      · obtain ⟨_, _, rfl⟩ := List.mem_map.mp own
        simp
      · exact loose names around
  | _ => exact ⟨fun _ => receives, loose⟩

/-- A visit at which `this` is bound, and the nearest scope that has it. -/
theorem Accepted.this_bound {final : Distances} {reference : Reference} {analysis : Analysis}
    {loose : List (List String)}
    (accepted : Accepted final ⟨.expr (.this reference), analysis, loose⟩)
    (guarded : Guarded ⟨.expr (.this reference), analysis, loose⟩) :
    ∃ distance, final.get? reference.id = some distance ∧
      nearest analysis.scopes "this" = some distance := by
  have named : reference.name.lexeme = "this" := accepted.placed
  have inClass : analysis.enclosure ≠ .none := by
    intro outside
    have clean := accepted.clean
    change (analysis.bindThis reference).faults = [] at clean
    unfold Analysis.bindThis at clean
    rw [outside] at clean
    exact report_faults_ne_nil clean
  obtain ⟨distance, found⟩ := (guarded.receives (by simp)).object inClass
  exact ⟨distance, by rw [accepted.this, named, found], found⟩

/-- A visit at which `super` is bound. The nearest scope that has `this` is next
to it. -/
theorem Accepted.super_bound {final : Distances} {reference : Reference} {method : Token}
    {analysis : Analysis} {loose : List (List String)}
    (accepted : Accepted final ⟨.expr (.super reference method), analysis, loose⟩)
    (guarded : Guarded ⟨.expr (.super reference method), analysis, loose⟩) :
    ∃ distance, final.get? reference.id = some (distance + 1) ∧
      nearest analysis.scopes "this" = some distance ∧
      nearest analysis.scopes "super" = some (distance + 1) := by
  have named : reference.name.lexeme = "super" := accepted.placed
  obtain ⟨noted, inSubclass⟩ := accepted.super
  obtain ⟨distance, object, above⟩ := (guarded.receives (by simp)).paired inSubclass
  exact ⟨distance, by rw [noted, named, above], object, above⟩

end Visit

end Lox
