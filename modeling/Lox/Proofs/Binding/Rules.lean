import Lox.Proofs.Binding.Visits

/-!
# The rules of binding

Each rule speaks of one kind of construct and of what stands around it: the scope
with the names declared there so far, the functions, and the classes. Here all
such constructs of a program are listed together with what is around them, without
any state that would be changed on the way. What binding finds wrong is what the
rules find wrong with the constructs of that list, neither more nor less.
-/

namespace Lox

/-! ## Surroundings -/

/-- Something around a point of a program. -/
inductive Surrounding where
  /-- A block, or a body with its parameters. The names are those that are declared
  there in front of the point. -/
  | scope (names : List String)
  | function
  | method (name : String)
  | cls (inherits : Bool)
  | initialValue (name : String)
  deriving DecidableEq, Repr

/-- Everything around a point of a program, the innermost first. -/
abbrev Surroundings := List Surrounding

namespace Surroundings

/-- The names declared so far in the innermost scope. Outside of all blocks and
bodies there is none. -/
def names? (around : Surroundings) : Option (List String) :=
  around.findSome? fun
    | .scope names => some names
    | _ => none

/-- The innermost function or method: a method with its name. -/
def callee? (around : Surroundings) : Option (Option String) :=
  around.findSome? fun
    | .function => some none
    | .method name => some (some name)
    | _ => none

/-- Whether the innermost class inherits from another one. -/
def inherits? (around : Surroundings) : Option Bool :=
  around.findSome? fun
    | .cls inherits => some inherits
    | _ => none

/-- The same point behind some declarations. -/
def declaring (names : List String) : Surroundings → Surroundings
  | .scope earlier :: outer => .scope (earlier ++ names) :: outer
  | around => around

/-- A name is declared already in the innermost scope. -/
def Declares (around : Surroundings) (name : String) : Prop :=
  ∃ names ∈ around.names?, name ∈ names

/-- The point is in the initial value of a variable, which is the first of its name
in a local scope. -/
def Initializes (around : Surroundings) (name : String) : Prop :=
  around.head? = some (.initialValue name) ∧ ∃ names ∈ around.names?, name ∉ names

instance (around : Surroundings) (name : String) : Decidable (around.Declares name) :=
  inferInstanceAs (Decidable (∃ names ∈ around.names?, name ∈ names))

instance (around : Surroundings) (name : String) : Decidable (around.Initializes name) :=
  inferInstanceAs (Decidable (_ ∧ ∃ names ∈ around.names?, name ∉ names))

end Surroundings

/-! ## Rules -/

/-- A construct that some rule speaks of. -/
inductive Construct where
  | declaration (name : Token)
  | reading (name : Token)
  | returning (keyword : Token) (hasValue : Bool)
  | this (keyword : Token)
  | super (keyword : Token)
  | inheriting (name superclass : Token)

/-- A construct in a program. -/
structure Site where
  construct : Construct
  around : Surroundings

/-- What the rules say about a construct, at the token that is at fault. -/
def Site.fault? : Site → Option Diagnostic
  | ⟨.declaration name, around⟩ =>
      if around.Declares name.lexeme then some (.binding name .alreadyDeclared) else none
  | ⟨.reading name, around⟩ =>
      if around.Initializes name.lexeme then some (.binding name .readInOwnInitializer) else none
  | ⟨.returning keyword hasValue, around⟩ =>
      match around.callee? with
      | none => some (.binding keyword .returnAtTopLevel)
      | some callee =>
          if callee = some "init" ∧ hasValue then some (.binding keyword .valueFromInitializer)
          else none
  | ⟨.this keyword, around⟩ =>
      if around.inherits? = none then some (.binding keyword .thisOutsideClass) else none
  | ⟨.super keyword, around⟩ =>
      match around.inherits? with
      | none => some (.binding keyword .superOutsideClass)
      | some false => some (.binding keyword .superWithoutSuperclass)
      | some true => none
  | ⟨.inheriting name superclass, _⟩ =>
      if superclass.lexeme = name.lexeme then some (.binding superclass .inheritsFromItself)
      else none

/-- What the rules find wrong with some constructs. -/
def Site.faults (sites : List Site) : List Diagnostic :=
  sites.filterMap Site.fault?

@[simp] theorem Site.faults_nil : Site.faults [] = [] := rfl

@[simp] theorem Site.faults_append (front back : List Site) :
    Site.faults (front ++ back) = Site.faults front ++ Site.faults back :=
  List.filterMap_append

theorem Site.faults_cons (first : Site) (rest : List Site) :
    Site.faults (first :: rest) = Site.faults [first] ++ Site.faults rest :=
  Site.faults_append [first] rest

/-! ## The constructs of a program -/

mutual

/-- The constructs in an expression. A value comes before the object that it is
stored in. -/
def Expr.sites (around : Surroundings) : Expr → List Site
  | .literal _ => []
  | .grouping inner => inner.sites around
  | .unary _ operand => operand.sites around
  | .binary left _ right => left.sites around ++ right.sites around
  | .logical left _ right => left.sites around ++ right.sites around
  | .variable reference => [⟨.reading reference.name, around⟩]
  | .assign _ value => value.sites around
  | .call callee _ arguments => callee.sites around ++ Expr.listSites around arguments
  | .get object _ => object.sites around
  | .set object _ value => value.sites around ++ object.sites around
  | .this reference => [⟨.this reference.name, around⟩]
  | .super reference _ => [⟨.super reference.name, around⟩]

/-- The constructs in several expressions. -/
def Expr.listSites (around : Surroundings) : List Expr → List Site
  | [] => []
  | first :: rest => first.sites around ++ Expr.listSites around rest

end

/-- The constructs in an expression, where there is one. -/
def Expr.optionSites (around : Surroundings) (value : Option Expr) : List Site :=
  (value.map (Expr.sites around)).getD []

/-- Declarations one behind the other. -/
def Site.declarations (around : Surroundings) : List Token → List Site
  | [] => []
  | first :: rest =>
      ⟨.declaration first, around⟩ :: Site.declarations (around.declaring [first.lexeme]) rest

/-- A class that inherits from something by its name. -/
def Site.inheritance (around : Surroundings) (name : Token) : Expr → List Site
  | .variable reference => [⟨.inheriting name reference.name, around⟩]
  | _ => []

/-- The constructs in front of the methods of a class. -/
def Site.ofHeading (around : Surroundings) (name : Token) : Option Expr → List Site
  | none => []
  | some superclass =>
      Site.inheritance around name superclass ++ superclass.sites (.cls true :: around)

mutual

/-- The constructs in a statement. -/
def Stmt.sites (around : Surroundings) : Stmt → List Site
  | .expression value => value.sites around
  | .print value => value.sites around
  | .var name initializer =>
      ⟨.declaration name, around⟩ ::
        Expr.optionSites (.initialValue name.lexeme :: around) initializer
  | .block body => Stmt.listSites (.scope [] :: around) body
  | .conditional condition consequent alternative =>
      condition.sites around ++ consequent.sites around ++
        Stmt.optionSites (around.declaring consequent.declares) alternative
  | .whileLoop condition body => condition.sites around ++ body.sites around
  | .forLoop initializer condition increment body =>
      let inside := around.declaring (Stmt.optionDeclares initializer)
      Stmt.optionSites around initializer ++ Expr.optionSites inside condition ++
        Expr.optionSites inside increment ++ body.sites inside
  | .function declaration =>
      ⟨.declaration declaration.name, around⟩ ::
        declaration.sites (.function :: around.declaring [declaration.name.lexeme])
  | .returning keyword value =>
      ⟨.returning keyword value.isSome, around⟩ :: Expr.optionSites around value
  | .classDecl name superclass methods =>
      let inside := around.declaring [name.lexeme]
      ⟨.declaration name, around⟩ :: Site.ofHeading inside name superclass ++
        FunctionDecl.listSites (.cls superclass.isSome :: inside) methods

/-- The constructs in a statement, where there is one. -/
def Stmt.optionSites (around : Surroundings) : Option Stmt → List Site
  | none => []
  | some statement => statement.sites around

/-- The constructs in statements, each behind the declarations of those before it. -/
def Stmt.listSites (around : Surroundings) : List Stmt → List Site
  | [] => []
  | first :: rest =>
      first.sites around ++ Stmt.listSites (around.declaring first.declares) rest

/-- The constructs in a function, whose parameters are in one scope with its body. -/
def FunctionDecl.sites (around : Surroundings) : FunctionDecl → List Site
  | ⟨_, parameters, body⟩ =>
      Site.declarations (.scope [] :: around) parameters ++
        Stmt.listSites (.scope (parameters.map Token.lexeme) :: around) body

/-- The constructs in the methods of a class. -/
def FunctionDecl.listSites (around : Surroundings) : List FunctionDecl → List Site
  | [] => []
  | first :: rest =>
      first.sites (.method first.name.lexeme :: around) ++ FunctionDecl.listSites around rest

end

/-! ## What the analysis knows -/

namespace Surroundings

/-- The innermost function or method, in the words of the analysis. -/
def body (around : Surroundings) : Body :=
  match around.callee? with
  | none => .program
  | some none => .function
  | some (some name) => Analysis.methodBody name

/-- The innermost class, in the words of the analysis. -/
def enclosure (around : Surroundings) : Enclosure :=
  match around.inherits? with
  | none => .none
  | some false => .baseClass
  | some true => .subclass

@[simp] theorem declaring_nil (around : Surroundings) : around.declaring [] = around := by
  cases around with
  | nil => rfl
  | cons first _ => cases first <;> simp [declaring]

@[simp] theorem callee?_declaring (around : Surroundings) (names : List String) :
    (around.declaring names).callee? = around.callee? := by
  cases around with
  | nil => rfl
  | cons first _ => cases first <;> rfl

@[simp] theorem inherits?_declaring (around : Surroundings) (names : List String) :
    (around.declaring names).inherits? = around.inherits? := by
  cases around with
  | nil => rfl
  | cons first _ => cases first <;> rfl

@[simp] theorem body_declaring (around : Surroundings) (names : List String) :
    (around.declaring names).body = around.body := by
  cases around with
  | nil => rfl
  | cons first _ => cases first <;> rfl

@[simp] theorem enclosure_declaring (around : Surroundings) (names : List String) :
    (around.declaring names).enclosure = around.enclosure := by
  cases around with
  | nil => rfl
  | cons first _ => cases first <;> rfl

end Surroundings

namespace Analysis

/-! ## Expressions -/

/-- An analysis knows what is around an expression, as far as expressions go. -/
structure Reads (analysis : Analysis) (around : Surroundings) : Prop where
  pending : ∀ name, analysis.isPending name = true ↔ around.Initializes name
  enclosure : analysis.enclosure = around.enclosure

variable {analysis : Analysis} {around : Surroundings}

theorem Reads.of_passes {after : Analysis} {numbers : List Nat} (reads : analysis.Reads around)
    (passes : analysis.Passes after [] numbers) : after.Reads around := by
  have scopes := passes.scopes
  rw [declaring_nil] at scopes
  constructor
  · intro name
    rw [← reads.pending]
    unfold isPending
    rw [scopes]
  · rw [passes.enclosure]
    exact reads.enclosure

theorem faults_bind (analysis : Analysis) (reference : Reference) :
    (analysis.bind reference).faults = analysis.faults := by
  unfold bind
  split <;> rfl

theorem faults_bindVariable (reads : analysis.Reads around) (reference : Reference) :
    (analysis.bindVariable reference).faults =
      analysis.faults ++ Site.faults [⟨.reading reference.name, around⟩] := by
  unfold bindVariable
  by_cases initializes : around.Initializes reference.name.lexeme
  · rw [if_pos ((reads.pending _).mpr initializes)]
    simp [Site.faults, Site.fault?, initializes, report]
  · rw [if_neg (mt (reads.pending _).mp initializes), faults_bind]
    simp [Site.faults, Site.fault?, initializes]

theorem faults_bindThis (reads : analysis.Reads around) (reference : Reference) :
    (analysis.bindThis reference).faults =
      analysis.faults ++ Site.faults [⟨.this reference.name, around⟩] := by
  unfold bindThis
  rw [reads.enclosure, Surroundings.enclosure]
  cases enclosed : around.inherits? with
  | none => simp [Site.faults, Site.fault?, enclosed, report]
  | some inherits => cases inherits <;> simp [Site.faults, Site.fault?, enclosed, faults_bind]

theorem faults_bindSuper (reads : analysis.Reads around) (reference : Reference) :
    (analysis.bindSuper reference).faults =
      analysis.faults ++ Site.faults [⟨.super reference.name, around⟩] := by
  unfold bindSuper
  rw [reads.enclosure, Surroundings.enclosure]
  cases enclosed : around.inherits? with
  | none => simp [Site.faults, Site.fault?, enclosed, report]
  | some inherits =>
      cases inherits <;> simp [Site.faults, Site.fault?, enclosed, faults_bind, report]

mutual

theorem faults_expr (value : Expr) {analysis : Analysis} (reads : analysis.Reads around) :
    (expr value analysis).faults = analysis.faults ++ Site.faults (value.sites around) := by
  have later {part : Expr} : (expr part analysis).Reads around :=
    reads.of_passes (passes_expr part analysis)
  cases value with
  | literal _ => simp [expr, Expr.sites]
  | grouping inner =>
      rw [expr, Expr.sites]
      exact faults_expr inner reads
  | unary _ operand =>
      rw [expr, Expr.sites]
      exact faults_expr operand reads
  | binary left _ right =>
      rw [expr, Expr.sites, faults_expr right later, faults_expr left reads, Site.faults_append,
        List.append_assoc]
  | logical left _ right =>
      rw [expr, Expr.sites, faults_expr right later, faults_expr left reads, Site.faults_append,
        List.append_assoc]
  | «variable» reference =>
      rw [expr, Expr.sites]
      exact faults_bindVariable reads reference
  | assign reference value =>
      rw [expr, Expr.sites, faults_bind]
      exact faults_expr value reads
  | call callee _ arguments =>
      rw [expr, Expr.sites, faults_exprs arguments later, faults_expr callee reads,
        Site.faults_append, List.append_assoc]
  | get object _ =>
      rw [expr, Expr.sites]
      exact faults_expr object reads
  | set object _ value =>
      rw [expr, Expr.sites, faults_expr object later, faults_expr value reads, Site.faults_append,
        List.append_assoc]
  | this reference =>
      rw [expr, Expr.sites]
      exact faults_bindThis reads reference
  | super reference _ =>
      rw [expr, Expr.sites]
      exact faults_bindSuper reads reference

theorem faults_exprs (values : List Expr) {analysis : Analysis} (reads : analysis.Reads around) :
    (exprs values analysis).faults =
      analysis.faults ++ Site.faults (Expr.listSites around values) := by
  cases values with
  | nil => simp [exprs, Expr.listSites]
  | cons first rest =>
      rw [exprs, Expr.listSites, faults_exprs rest (reads.of_passes (passes_expr first analysis)),
        faults_expr first reads, Site.faults_append, List.append_assoc]

end

theorem faults_optionalExpr (value : Option Expr) (reads : analysis.Reads around) :
    (optionalExpr value analysis).faults =
      analysis.faults ++ Site.faults (Expr.optionSites around value) := by
  cases value with
  | none => simp [optionalExpr, Expr.optionSites]
  | some value => exact faults_expr value reads

/-! ## Statements -/

/-- An analysis knows what is around a statement. Statements stand in a scope, or
outside of everything. -/
structure Knows (analysis : Analysis) (around : Surroundings) : Prop where
  innermost : match analysis.scopes with
    | [] => around = []
    | scope :: _ => ∃ names outer, around = .scope names :: outer ∧
        ∀ name, scope.contains name = true ↔ name ∈ names
  ready : AllReady analysis.scopes
  body : analysis.body = around.body
  enclosure : analysis.enclosure = around.enclosure

theorem isPending_of_ready (ready : AllReady analysis.scopes) (name : String) :
    analysis.isPending name = false := by
  unfold isPending
  cases shape : analysis.scopes with
  | nil => rfl
  | cons scope outer => exact decide_eq_false (ready scope (shape ▸ .head _) name)

namespace Knows

theorem reads (knows : analysis.Knows around) : analysis.Reads around := by
  refine ⟨fun name => ?_, knows.enclosure⟩
  have innermost := knows.innermost
  rw [isPending_of_ready knows.ready]
  unfold Surroundings.Initializes
  cases shape : analysis.scopes with
  | nil =>
      rw [shape] at innermost
      simp [innermost]
  | cons scope outer =>
      rw [shape] at innermost
      obtain ⟨names, beyond, rfl, -⟩ := innermost
      simp

/-- Behind a part that declares some names. -/
theorem of_passes (knows : analysis.Knows around) {after : Analysis} {names : List String}
    {numbers : List Nat} (passes : analysis.Passes after names numbers) :
    after.Knows (around.declaring names) := by
  have innermost := knows.innermost
  constructor
  · rw [passes.scopes]
    cases shape : analysis.scopes with
    | nil =>
        rw [shape] at innermost
        rw [innermost]
        rfl
    | cons scope outer =>
        rw [shape] at innermost
        obtain ⟨earlier, beyond, rfl, same⟩ := innermost
        refine ⟨earlier ++ names, beyond, rfl, fun name => ?_⟩
        rw [contains_declared, same, List.mem_append, or_comm]
  · rw [passes.scopes]
    exact knows.ready.declaring names
  · rw [passes.body, knows.body, Surroundings.body_declaring]
  · rw [passes.enclosure, knows.enclosure, Surroundings.enclosure_declaring]

theorem of_quiet (knows : analysis.Knows around) {after : Analysis} {numbers : List Nat}
    (passes : analysis.Passes after [] numbers) : after.Knows around := by
  have known := knows.of_passes passes
  rwa [Surroundings.declaring_nil] at known

end Knows

/-! ### Single rules -/

theorem faults_declare (knows : analysis.Knows around) (name : Token) :
    (analysis.declare name).faults =
      analysis.faults ++ Site.faults [⟨.declaration name, around⟩] := by
  have innermost := knows.innermost
  unfold declare
  cases shape : analysis.scopes with
  | nil =>
      rw [shape] at innermost
      simp [innermost, Site.faults, Site.fault?, Surroundings.Declares, Surroundings.names?]
  | cons scope outer =>
      rw [shape] at innermost
      obtain ⟨names, beyond, rfl, same⟩ := innermost
      simp only [same name.lexeme]
      split
      · next taken =>
          simp [Site.faults, Site.fault?, Surroundings.Declares, Surroundings.names?, taken, report]
      · next free =>
          simp [Site.faults, Site.fault?, Surroundings.Declares, Surroundings.names?, free]

theorem faults_define (analysis : Analysis) (text : String) :
    (analysis.define text).faults = analysis.faults := by
  unfold define
  split <;> rfl

theorem faults_introduce (knows : analysis.Knows around) (name : Token) :
    (analysis.introduce name).faults =
      analysis.faults ++ Site.faults [⟨.declaration name, around⟩] := by
  rw [introduce, faults_define, faults_declare knows]

theorem faults_introduceAll (names : List Token) {analysis : Analysis} {around : Surroundings}
    (knows : analysis.Knows around) :
    (names.foldl (fun analysis name => analysis.introduce name) analysis).faults =
      analysis.faults ++ Site.faults (Site.declarations around names) := by
  induction names generalizing analysis around with
  | nil => simp [Site.declarations]
  | cons first rest ih =>
      rw [List.foldl_cons, ih (knows.of_passes (passes_introduce analysis first)),
        faults_introduce knows, Site.declarations,
        Site.faults_cons _ (Site.declarations _ rest), List.append_assoc]

/-- The initial value of a variable is read where its name is pending, unless the name
was there before. -/
theorem reads_declare (knows : analysis.Knows around) (name : Token) :
    (analysis.declare name).Reads (.initialValue name.lexeme :: around) := by
  refine ⟨fun other => ?_, (around_declare analysis name).2.trans knows.enclosure⟩
  have innermost := knows.innermost
  have ready := knows.ready
  unfold declare isPending
  cases shape : analysis.scopes with
  | nil =>
      rw [shape] at innermost
      simp [shape, innermost, Surroundings.Initializes, Surroundings.names?]
  | cons scope outer =>
      rw [shape] at innermost ready
      obtain ⟨names, beyond, rfl, same⟩ := innermost
      have awake := ready scope (.head _) other
      dsimp only
      by_cases taken : scope.contains name.lexeme = true
      · have declared : name.lexeme = other → other ∈ names :=
          fun here => here ▸ (same _).mp taken
        simpa [taken, report, shape, awake, Surroundings.Initializes, Surroundings.names?] using
          declared
      · by_cases here : name.lexeme = other
        · subst here
          have fresh : name.lexeme ∉ names := mt (same _).mpr taken
          simp [taken, fresh, Surroundings.Initializes, Surroundings.names?]
        · simp [taken, Bindings.get?_set, here, awake, Surroundings.Initializes]

theorem faults_checkReturn (knows : analysis.Knows around) (keyword : Token) (hasValue : Bool) :
    (analysis.checkReturn keyword hasValue).faults =
      analysis.faults ++ Site.faults [⟨.returning keyword hasValue, around⟩] := by
  unfold checkReturn
  rw [knows.body, Surroundings.body]
  cases inside : around.callee? with
  | none => simp [Site.faults, Site.fault?, inside, report]
  | some callee =>
      cases callee with
      | none => simp [Site.faults, Site.fault?, inside]
      | some name =>
          by_cases initializes : name = initializerName
          · cases hasValue <;>
              simp [Site.faults, Site.fault?, inside, methodBody, initializes, initializerName,
                report]
          · have other : name ≠ "init" := initializes
            simp [Site.faults, Site.fault?, inside, methodBody, initializes, other]

theorem faults_checkSuperclass (analysis : Analysis) (around : Surroundings) (name : Token)
    (superclass : Expr) :
    (analysis.checkSuperclass name superclass).faults =
      analysis.faults ++ Site.faults (Site.inheritance around name superclass) := by
  cases superclass with
  | «variable» reference =>
      by_cases same : reference.name.lexeme = name.lexeme <;>
        simp [checkSuperclass, Site.inheritance, Site.faults, Site.fault?, same, report]
  | _ => simp [checkSuperclass, Site.inheritance]

/-! ### Bodies and classes -/

/-- A scope of its own is known, whatever the scopes around it are. -/
theorem knows_openScope {inside : Surroundings} (ready : AllReady analysis.scopes)
    (body : analysis.body = inside.body) (enclosure : analysis.enclosure = inside.enclosure) :
    analysis.openScope.Knows (.scope [] :: inside) :=
  ⟨⟨[], inside, rfl, by simp⟩, ready.openScope, body, enclosure⟩

/-- What is found in front of the methods of a class. -/
theorem faults_enterClass (knows : analysis.Knows around) (name : Token)
    (superclass : Option Expr) :
    (analysis.enterClass name superclass).faults =
      analysis.faults ++ Site.faults [⟨.declaration name, around⟩] ++
        Site.faults (Site.ofHeading (around.declaring [name.lexeme]) name superclass) := by
  have introduced : ((analysis.withEnclosure .baseClass).introduce name).faults =
      analysis.faults ++ Site.faults [⟨.declaration name, around⟩] := by
    rw [← faults_introduce knows]
    unfold introduce declare
    cases shape : analysis.scopes with
    | nil => simp [withEnclosure, shape, faults_define]
    | cons scope outer =>
        simp only [withEnclosure, shape, faults_define]
        split <;> rfl
  cases superclass with
  | none =>
      rw [enterClass_none, faults_define, Site.ofHeading, Site.faults_nil, List.append_nil]
      exact introduced
  | some superclass =>
      have reads : (analysis.atSuperclass name superclass).Reads
          (.cls true :: around.declaring [name.lexeme]) := by
        refine ⟨fun other => ?_, rfl⟩
        have ready : AllReady (analysis.atSuperclass name superclass).scopes := by
          rw [scopes_atSuperclass]
          exact knows.ready.declaring _
        simp [isPending_of_ready ready, Surroundings.Initializes]
      rw [enterClass_some, faults_define, Site.ofHeading, Site.faults_append]
      change (((expr superclass (analysis.atSuperclass name superclass)).openScope).define
        "super").faults = _
      rw [faults_define]
      change (expr superclass (analysis.atSuperclass name superclass)).faults = _
      rw [faults_expr superclass reads, ← List.append_assoc, ← introduced,
        ← faults_checkSuperclass]
      rfl

theorem faults_leaveClass (analysis : Analysis) (superclass : Option Expr)
    (enclosure : Enclosure) :
    (analysis.leaveClass superclass enclosure).faults = analysis.faults := by
  cases superclass <;> rfl

mutual

theorem faults_stmt (statement : Stmt) {analysis : Analysis} {around : Surroundings}
    (knows : analysis.Knows around) :
    (stmt statement analysis).faults =
      analysis.faults ++ Site.faults (statement.sites around) := by
  cases statement with
  | expression value =>
      rw [stmt, Stmt.sites]
      exact faults_expr value knows.reads
  | print value =>
      rw [stmt, Stmt.sites]
      exact faults_expr value knows.reads
  | var name initializer =>
      rw [stmt, Stmt.sites, faults_define, faults_optionalExpr initializer
        (reads_declare knows name),
        faults_declare knows, Site.faults_cons _ (Expr.optionSites _ _), List.append_assoc]
  | block body =>
      rw [stmt, Stmt.sites]
      exact faults_stmts body (knows_openScope knows.ready knows.body knows.enclosure)
  | conditional condition consequent alternative =>
      have middle := knows.of_quiet (passes_expr condition analysis)
      rw [stmt, Stmt.sites,
        faults_optionalStmt alternative (middle.of_passes (passes_stmt consequent _)),
        faults_stmt consequent middle, faults_expr condition knows.reads]
      simp
  | whileLoop condition body =>
      have middle := knows.of_quiet (passes_expr condition analysis)
      rw [stmt, Stmt.sites, faults_stmt body middle, faults_expr condition knows.reads]
      simp
  | forLoop initializer condition increment body =>
      have opened := knows.of_passes (passes_optionalStmt initializer analysis)
      have checked := opened.of_quiet (passes_optionalExpr _ condition)
      have stepped := checked.of_quiet (passes_optionalExpr _ increment)
      rw [stmt, Stmt.sites, faults_stmt body stepped, faults_optionalExpr increment checked.reads,
        faults_optionalExpr condition opened.reads, faults_optionalStmt initializer knows]
      simp
  | function declaration =>
      have introduced := knows.of_passes (passes_introduce analysis declaration.name)
      have inside : Surroundings.body
          (.function :: around.declaring [declaration.name.lexeme]) = .function := rfl
      rw [stmt, Stmt.sites, faults_functionBody declaration introduced.ready inside
        introduced.enclosure, faults_introduce knows, Site.faults_cons _ (declaration.sites _),
        List.append_assoc]
  | returning keyword value =>
      have middle := knows.of_quiet (passes_checkReturn analysis keyword value.isSome)
      rw [stmt, Stmt.sites, faults_optionalExpr value middle.reads, faults_checkReturn knows,
        Site.faults_cons _ (Expr.optionSites _ _), List.append_assoc]
  | classDecl name superclass methods =>
      obtain ⟨-, scopes, -, enclosure⟩ := enterClass_passes analysis name superclass
      have ready : AllReady (analysis.enterClass name superclass).scopes := by
        rw [scopes]
        exact (knows.ready.declaring _).receiver superclass
      have enclosed : (analysis.enterClass name superclass).enclosure = Surroundings.enclosure
          (.cls superclass.isSome :: around.declaring [name.lexeme]) := by
        rw [enclosure]
        cases superclass <;> rfl
      rw [stmt, Stmt.sites, faults_leaveClass, faults_methodBodies methods ready enclosed,
        faults_enterClass knows, List.append_assoc, List.append_assoc, ← Site.faults_append,
        ← Site.faults_append]
      rfl

theorem faults_stmts (statements : List Stmt) {analysis : Analysis} {around : Surroundings}
    (knows : analysis.Knows around) :
    (stmts statements analysis).faults =
      analysis.faults ++ Site.faults (Stmt.listSites around statements) := by
  cases statements with
  | nil => simp [stmts, Stmt.listSites]
  | cons first rest =>
      rw [stmts, Stmt.listSites, faults_stmts rest (knows.of_passes (passes_stmt first analysis)),
        faults_stmt first knows, Site.faults_append, List.append_assoc]

theorem faults_optionalStmt (statement : Option Stmt) {analysis : Analysis}
    {around : Surroundings} (knows : analysis.Knows around) :
    (optionalStmt statement analysis).faults =
      analysis.faults ++ Site.faults (Stmt.optionSites around statement) := by
  cases statement with
  | none => simp [optionalStmt, Stmt.optionSites]
  | some statement =>
      rw [optionalStmt, Stmt.optionSites]
      exact faults_stmt statement knows

theorem faults_functionBody (declaration : FunctionDecl) {body : Body} {analysis : Analysis}
    {inside : Surroundings} (ready : AllReady analysis.scopes) (named : inside.body = body)
    (enclosure : analysis.enclosure = inside.enclosure) :
    (functionBody declaration body analysis).faults =
      analysis.faults ++ Site.faults (declaration.sites inside) := by
  obtain ⟨name, parameters, statements⟩ := declaration
  have knows : (analysis.withBody body).openScope.Knows (.scope [] :: inside) :=
    knows_openScope ready named.symm enclosure
  have entered := knows.of_passes (passes_introduceAll _ parameters)
  rw [functionBody, FunctionDecl.sites, Site.faults_append, ← List.append_assoc]
  have bodyFaults := faults_stmts statements entered
  rw [faults_introduceAll parameters knows] at bodyFaults
  exact bodyFaults

theorem faults_methodBodies (methods : List FunctionDecl) {analysis : Analysis}
    {inside : Surroundings} (ready : AllReady analysis.scopes)
    (enclosure : analysis.enclosure = inside.enclosure) :
    (methodBodies methods analysis).faults =
      analysis.faults ++ Site.faults (FunctionDecl.listSites inside methods) := by
  cases methods with
  | nil => simp [methodBodies, FunctionDecl.listSites]
  | cons first rest =>
      have passes := passes_functionBody first (methodBody first.name.lexeme) analysis
      have later :
          AllReady (functionBody first (methodBody first.name.lexeme) analysis).scopes := by
        rw [passes.scopes, declaring_nil]
        exact ready
      have named : Surroundings.body (.method first.name.lexeme :: inside) =
          methodBody first.name.lexeme := rfl
      rw [methodBodies, FunctionDecl.listSites, faults_methodBodies rest later
        (passes.enclosure.trans enclosure), faults_functionBody first ready named enclosure,
        Site.faults_append, List.append_assoc]

end

end Analysis

/-- The constructs of a program. -/
def Site.ofProgram (program : List Stmt) : List Site :=
  Stmt.listSites [] program

/-- What binding finds wrong with a program is what the rules find wrong with its
constructs, one fault for each that breaks a rule. -/
theorem faults_bindProgram (program : List Stmt) (distances : Distances) :
    (bindProgram program distances).1 = Site.faults (Site.ofProgram program) := by
  have outside : (Analysis.start distances).Knows [] :=
    ⟨rfl, (fun scope inside => nomatch inside), rfl, rfl⟩
  exact Analysis.faults_stmts program outside

/-- Nothing is wrong with some constructs if no rule is broken by any of them. -/
theorem Site.faults_eq_nil {sites : List Site} :
    Site.faults sites = [] ↔ ∀ site ∈ sites, site.fault? = none :=
  List.filterMap_eq_nil_iff

end Lox
