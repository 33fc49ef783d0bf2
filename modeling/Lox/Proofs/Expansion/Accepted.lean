import Lox.Proofs.Binding.Distinct
import Lox.Proofs.Expansion.Basic

/-!
# Expanded programs are accepted

What the rules of binding ask of a construct is asked of it in the expanded program, too,
where it may have an empty scope more around it. No rule is broken by that, since nothing
is declared in such a scope and no initial value stands directly in it.
-/

namespace Lox

variable {rule : Padding.Rule}

/-! ## Uses of names -/

theorem Stmt.numbers_clause (clause : Option Stmt) :
    Stmt.listNumbers clause.toList = Stmt.optionNumbers clause := by
  cases clause with
  | none => rfl
  | some statement => exact List.append_nil _

theorem Stmt.numbers_whileOf (condition increment : Option Expr) (body : Stmt) :
    (Stmt.whileOf condition increment body).numbers =
      Expr.optionNumbers condition ++ (body.numbers ++ Expr.optionNumbers increment) := by
  cases condition <;> cases increment <;>
    simp [Stmt.whileOf, Expr.optionNumbers]

mutual

/-- Expanding loops moves the uses of names about, but no use is added or left out. -/
theorem Stmt.Expands.numbers {padding : Padding} {statement statement' : Stmt} :
    statement.Expands rule padding statement' → statement'.numbers.Perm statement.numbers
  | .expression _ => .refl _
  | .print _ => .refl _
  | .var _ _ => .refl _
  | .block parts => parts.numbers
  | .conditional _ second third => by
      rw [Stmt.numbers, Stmt.numbers]
      exact (second.numbers.append_left _).append third.numbers
  | .whileLoop _ second => by
      rw [Stmt.numbers, Stmt.numbers]
      exact second.numbers.append_left _
  | .forLoop first _ _ fourth => by
      rw [Stmt.numbers, Stmt.numbers]
      exact ((first.numbers.append_right _).append_right _).append fourth.numbers
  | .function _ parts => parts.numbers
  | .returning _ => .refl _
  | .classDecl _ _ parts => by
      rw [Stmt.numbers, Stmt.numbers]
      exact parts.numbers.append_left _

theorem Stmt.ListExpands.numbers {padding : Padding} {body body' : List Stmt} :
    Stmt.ListExpands rule padding body body' →
      (Stmt.listNumbers body').Perm (Stmt.listNumbers body)
  | .nil => .refl _
  | .cons head tail => by
      rw [Stmt.listNumbers, Stmt.listNumbers]
      exact head.numbers.append tail.numbers
  | @Stmt.ListExpands.loop _ _ _ _ increment _ _ _ _ _ _ _ _ _ fourth tail => by
      rw [Stmt.listNumbers_append, Stmt.listNumbers, Stmt.listNumbers, Stmt.numbers_clause,
        Stmt.numbers_whileOf, Stmt.numbers]
      simp only [List.append_assoc]
      refine .append_left _ (.append_left _ ?_)
      have swapped := (fourth.numbers.append_right (Expr.optionNumbers increment)).trans
        List.perm_append_comm
      have both := swapped.append tail.numbers
      simpa only [List.append_assoc] using both

theorem Stmt.OptionExpands.numbers {padding : Padding} {statement statement' : Option Stmt} :
    Stmt.OptionExpands rule padding statement statement' →
      (Stmt.optionNumbers statement').Perm (Stmt.optionNumbers statement)
  | .none => .refl _
  | .some parts => parts.numbers

theorem FunctionDecl.Expands.numbers {padding : Padding} {declaration declaration' : FunctionDecl} :
    declaration.Expands rule padding declaration' → declaration'.numbers.Perm declaration.numbers
  | .intro parts => parts.numbers

theorem FunctionDecl.ListExpands.numbers {padding : Padding}
    {methods methods' : List FunctionDecl} :
    FunctionDecl.ListExpands rule padding methods methods' →
      (FunctionDecl.listNumbers methods').Perm (FunctionDecl.listNumbers methods)
  | .nil => .refl _
  | .cons head tail => by
      rw [FunctionDecl.listNumbers, FunctionDecl.listNumbers]
      exact head.numbers.append tail.numbers

end

/-! ## Surroundings -/

namespace Surroundings

variable {around around' : Surroundings} {names front back : List String}

/-- The rules ask no more of an expression in the second surroundings than in the first. -/
structure Eases (around around' : Surroundings) : Prop where
  inherits : around'.inherits? = around.inherits?
  initializes : ∀ name, around'.Initializes name → around.Initializes name

/-- Both are outside of all scopes, or in scopes with the same names. -/
def Level (around around' : Surroundings) : Prop :=
  (around = [] ∧ around' = []) ∨
    ∃ names outer outer', around = .scope names :: outer ∧ around' = .scope names :: outer'

/-- The rules ask no more in the second surroundings than in the first of a statement that
declares some names. -/
structure Follows (names : List String) (around around' : Surroundings) : Prop where
  callee : around'.callee? = around.callee?
  inherits : around'.inherits? = around.inherits?
  quiet : ∀ name, ¬ around'.Initializes name
  level : names = [] ∨ Level around around'

theorem names?_of_level (level : Level around around') : around'.names? = around.names? := by
  rcases level with ⟨rfl, rfl⟩ | ⟨_, _, _, rfl, rfl⟩ <;> rfl

theorem Level.declaring (level : Level around around') (names : List String) :
    Level (around.declaring names) (around'.declaring names) := by
  rcases level with ⟨rfl, rfl⟩ | ⟨earlier, outer, outer', rfl, rfl⟩
  · exact .inl ⟨rfl, rfl⟩
  · exact .inr ⟨earlier ++ names, outer, outer', rfl, rfl⟩

theorem initializes_of_declaring {name : String}
    (initializes : (around.declaring names).Initializes name) : around.Initializes name := by
  cases around with
  | nil => exact initializes
  | cons first outer =>
      cases first with
      | scope earlier => cases initializes.1
      | _ => exact initializes

namespace Follows

theorem eases (follows : Follows names around around') : Eases around around' :=
  ⟨follows.inherits, fun name initializes => absurd initializes (follows.quiet name)⟩

/-- What is declared first, and what is declared behind it. -/
theorem split (follows : Follows (front ++ back) around around') :
    Follows front around around' ∧
      Follows back (around.declaring front) (around'.declaring front) := by
  have quiet (name : String) : ¬ (around'.declaring front).Initializes name :=
    fun initializes => follows.quiet name (initializes_of_declaring initializes)
  have both : (front = [] ∨ Level around around') ∧
      (back = [] ∨ Level (around.declaring front) (around'.declaring front)) := by
    rcases follows.level with none | level
    · obtain ⟨rfl, rfl⟩ := List.append_eq_nil_iff.mp none
      exact ⟨.inl rfl, .inl rfl⟩
    · exact ⟨.inr level, .inr (level.declaring front)⟩
  exact ⟨⟨follows.callee, follows.inherits, follows.quiet, both.1⟩,
    ⟨by simpa using follows.callee, by simpa using follows.inherits, quiet, both.2⟩⟩

/-- Outside of everything. -/
theorem top : Follows names [] [] := by
  refine ⟨rfl, rfl, fun _ initializes => ?_, .inr (.inl ⟨rfl, rfl⟩)⟩
  cases initializes.1

theorem not_initializes_scope (name : String) :
    ¬ Initializes (.scope names :: around) name := by
  intro initializes
  cases initializes.1

/-- Behind what is declared. -/
theorem behind (follows : Follows names around around') :
    Follows [] (around.declaring names) (around'.declaring names) := by
  rw [← List.append_nil names] at follows
  exact follows.split.2

/-- Inside of another scope. -/
theorem enter (callee : around'.callee? = around.callee?)
    (inherits : around'.inherits? = around.inherits?) (names declared : List String) :
    Follows declared (.scope names :: around) (.scope names :: around') :=
  ⟨callee, inherits, not_initializes_scope, .inr (.inr ⟨names, around, around', rfl, rfl⟩)⟩

/-- Inside of a scope that the program does not have. -/
theorem deepen (follows : Follows names around around') :
    Follows [] around (.scope [] :: around') :=
  ⟨follows.callee, follows.inherits, not_initializes_scope, .inl rfl⟩

end Follows

end Surroundings

/-! ## Rules -/

variable {around around' : Surroundings}

mutual

/-- An expression that breaks no rule breaks none where the rules ask no more. -/
theorem Expr.clean_of_eases (eases : around.Eases around') :
    (value : Expr) → Site.faults (value.sites around) = [] → Site.faults (value.sites around') = []
  | .literal _, clean => clean
  | .grouping inner, clean => inner.clean_of_eases eases clean
  | .unary _ operand, clean => operand.clean_of_eases eases clean
  | .binary left _ right, clean => by
      rw [Expr.sites, Site.faults_append_eq_nil] at clean ⊢
      exact ⟨left.clean_of_eases eases clean.1, right.clean_of_eases eases clean.2⟩
  | .logical left _ right, clean => by
      rw [Expr.sites, Site.faults_append_eq_nil] at clean ⊢
      exact ⟨left.clean_of_eases eases clean.1, right.clean_of_eases eases clean.2⟩
  | .variable reference, clean => by
      have fresh : ¬ around.Initializes reference.name.lexeme := by
        simpa [Expr.sites, Site.faults_eq_nil, Site.fault?] using clean
      have still := mt (eases.initializes _) fresh
      simp [Expr.sites, Site.faults_eq_nil, Site.fault?, still]
  | .assign _ value, clean => value.clean_of_eases eases clean
  | .call callee _ arguments, clean => by
      rw [Expr.sites, Site.faults_append_eq_nil] at clean ⊢
      exact ⟨callee.clean_of_eases eases clean.1, Expr.list_clean_of_eases eases arguments clean.2⟩
  | .get object _, clean => object.clean_of_eases eases clean
  | .set object _ value, clean => by
      rw [Expr.sites, Site.faults_append_eq_nil] at clean ⊢
      exact ⟨value.clean_of_eases eases clean.1, object.clean_of_eases eases clean.2⟩
  | .this _, clean => by
      simpa [Expr.sites, Site.faults_eq_nil, Site.fault?, eases.inherits] using clean
  | .super _ _, clean => by
      simpa [Expr.sites, Site.faults_eq_nil, Site.fault?, eases.inherits] using clean

theorem Expr.list_clean_of_eases (eases : around.Eases around') :
    (values : List Expr) → Site.faults (Expr.listSites around values) = [] →
      Site.faults (Expr.listSites around' values) = []
  | [], clean => clean
  | first :: rest, clean => by
      rw [Expr.listSites, Site.faults_append_eq_nil] at clean ⊢
      exact ⟨first.clean_of_eases eases clean.1, Expr.list_clean_of_eases eases rest clean.2⟩

end

theorem Expr.option_clean_of_eases (eases : around.Eases around') (value : Option Expr)
    (clean : Site.faults (Expr.optionSites around value) = []) :
    Site.faults (Expr.optionSites around' value) = [] := by
  cases value with
  | none => exact clean
  | some value => exact value.clean_of_eases eases clean

theorem Site.clean_declaration {names : List String} {name : Token} (listed : name.lexeme ∈ names)
    (follows : around.Follows names around')
    (clean : Site.faults [⟨.declaration name, around⟩] = []) :
    Site.faults [⟨.declaration name, around'⟩] = [] := by
  rcases follows.level with rfl | level
  · cases listed
  · simpa [Site.faults_eq_nil, Site.fault?, Surroundings.Declares,
      Surroundings.names?_of_level level] using clean

theorem Site.clean_declarations {parameters : List Token}
    (level : around.Level around')
    (clean : Site.faults (Site.declarations around parameters) = []) :
    Site.faults (Site.declarations around' parameters) = [] := by
  induction parameters generalizing around around' with
  | nil => rfl
  | cons first rest ih =>
      rw [Site.declarations, Site.faults_cons_eq_nil] at clean ⊢
      refine ⟨?_, ih (level.declaring _) clean.2⟩
      simpa [Site.fault?, Surroundings.Declares, Surroundings.names?_of_level level] using clean.1

/-- An initial value that may be read in front of its variable may be read there in the
expanded program. -/
theorem Surroundings.Follows.initialValue {name : String}
    (follows : around.Follows [name] around') :
    Surroundings.Eases (.initialValue name :: around) (.initialValue name :: around') := by
  rcases follows.level with none | level
  · cases none
  · refine ⟨follows.inherits, fun other initializes => ⟨initializes.1, ?_⟩⟩
    obtain ⟨names, innermost, absent⟩ := initializes.2
    exact ⟨names, (Surroundings.names?_of_level level).symm.trans innermost, absent⟩

theorem Site.clean_heading {name : Token} {superclass : Option Expr}
    (clean : Site.faults (Site.ofHeading around name superclass) = []) :
    Site.faults (Site.ofHeading around' name superclass) = [] := by
  cases superclass with
  | none => rfl
  | some value =>
      rw [Site.ofHeading, Site.faults_append_eq_nil] at clean ⊢
      have eases : Surroundings.Eases (.cls true :: around) (.cls true :: around') :=
        ⟨rfl, fun _ initializes => by cases initializes.1⟩
      refine ⟨?_, value.clean_of_eases eases clean.2⟩
      cases value <;> first | rfl | exact clean.1

theorem Stmt.listSites_clause (around : Surroundings) (clause : Option Stmt) (rest : List Stmt) :
    Stmt.listSites around (clause.toList ++ rest) =
      Stmt.optionSites around clause ++
        Stmt.listSites (around.declaring (Stmt.optionDeclares clause)) rest := by
  cases clause with
  | none => rw [Stmt.optionDeclares, Surroundings.declaring_nil]; rfl
  | some statement => rfl

theorem Stmt.clean_whileOf {condition increment : Option Expr} {body : Stmt} :
    Site.faults ((Stmt.whileOf condition increment body).sites around) = [] ↔
      Site.faults (Expr.optionSites around condition) = [] ∧
        Site.faults (body.sites (.scope [] :: around)) = [] ∧
        Site.faults (Expr.optionSites (.scope body.declares :: around) increment) = [] := by
  cases condition <;> cases increment <;>
    simp [Stmt.whileOf, Stmt.sites, Stmt.listSites, Expr.optionSites, Expr.sites,
      Surroundings.declaring]

mutual

/-- Where a statement breaks no rule, it breaks none in the expanded program. -/
theorem Stmt.Expands.clean {padding : Padding} {statement statement' : Stmt}
    {around around' : Surroundings} :
    statement.Expands rule padding statement' → statement.Placed →
      around.Follows statement.declares around' → Site.faults (statement.sites around) = [] →
      Site.faults (statement'.sites around') = []
  | .expression _, _, follows, clean => Expr.clean_of_eases follows.eases _ clean
  | .print _, _, follows, clean => Expr.clean_of_eases follows.eases _ clean
  | .var _ _, _, follows, clean => by
      rw [Stmt.sites, Site.faults_cons, List.append_eq_nil_iff] at clean ⊢
      exact ⟨Site.clean_declaration (.head _) follows clean.1,
        Expr.option_clean_of_eases follows.initialValue _ clean.2⟩
  | .block parts, placed, follows, clean =>
      parts.clean placed (.enter follows.callee follows.inherits [] _) clean
  | .conditional _ second third, placed, follows, clean => by
      simp only [Stmt.sites, Site.faults_append_eq_nil] at clean ⊢
      rw [second.declares]
      exact ⟨⟨Expr.clean_of_eases follows.eases _ clean.1.1,
        second.clean placed.2.1.2 follows.split.1 clean.1.2⟩,
        third.clean placed.2.2 follows.split.2 clean.2⟩
  | .whileLoop _ second, placed, follows, clean => by
      rw [Stmt.sites, Site.faults_append_eq_nil] at clean ⊢
      exact ⟨Expr.clean_of_eases follows.eases _ clean.1, second.clean placed.2.2 follows clean.2⟩
  | .forLoop first _ _ fourth, placed, follows, clean => by
      simp only [Stmt.sites, Site.faults_append_eq_nil] at clean ⊢
      rw [first.declares]
      have behind := follows.split.2
      exact ⟨⟨⟨first.clauseClean placed.1 follows.split.1 clean.1.1.1,
        Expr.option_clean_of_eases behind.eases _ clean.1.1.2⟩,
        Expr.option_clean_of_eases behind.eases _ clean.1.2⟩,
        fourth.clean placed.2.2.2.2 behind clean.2⟩
  | .function _ parts, placed, follows, clean => by
      rw [Stmt.sites, Site.faults_cons, List.append_eq_nil_iff] at clean ⊢
      rw [parts.name]
      refine ⟨Site.clean_declaration (.head _) follows clean.1, parts.clean placed ?_ ?_ clean.2⟩
      · rfl
      · exact (Surroundings.inherits?_declaring _ _).trans
          (follows.inherits.trans (Surroundings.inherits?_declaring _ _).symm)
  | .returning _, _, follows, clean => by
      rw [Stmt.sites, Site.faults_cons, List.append_eq_nil_iff] at clean ⊢
      refine ⟨?_, Expr.option_clean_of_eases follows.eases _ clean.2⟩
      simpa [Site.faults_eq_nil, Site.fault?, follows.callee] using clean.1
  | .classDecl _ _ parts, placed, follows, clean => by
      simp only [Stmt.sites, List.cons_append, Site.faults_cons _ (_ ++ _),
        Site.faults_append, List.append_eq_nil_iff] at clean ⊢
      refine ⟨Site.clean_declaration (.head _) follows clean.1, Site.clean_heading clean.2.1,
        parts.clean placed.2.2 ?_ clean.2.2⟩
      rfl

theorem Stmt.ListExpands.clean {padding : Padding} {body body' : List Stmt}
    {around around' : Surroundings} :
    Stmt.ListExpands rule padding body body' → Stmt.ListPlaced body →
      around.Follows (Stmt.listDeclares body) around' →
      Site.faults (Stmt.listSites around body) = [] →
      Site.faults (Stmt.listSites around' body') = []
  | .nil, _, _, _ => rfl
  | .cons head tail, placed, follows, clean => by
      rw [Stmt.listSites, Site.faults_append_eq_nil] at clean ⊢
      rw [head.declares]
      exact ⟨head.clean placed.1 follows.split.1 clean.1,
        tail.clean placed.2 follows.split.2 clean.2⟩
  | @Stmt.ListExpands.loop _ _ initializer _ _ body _ _ _ _ first _ _ bare fourth tail, placed,
      follows, clean => by
      have nothing : body.declares = [] :=
        body.declares_of_not_bare placed.1.2.2.2.2 placed.1.2.2.2.1 bare
      have parts := follows.split
      simp only [Stmt.declares, nothing, List.append_nil] at parts
      have behind := parts.1.behind
      simp only [Stmt.listSites, Stmt.sites, Site.faults_append_eq_nil, Stmt.declares, nothing,
        List.append_nil] at clean
      rw [Stmt.listSites_clause, Stmt.listSites, Site.faults_append_eq_nil,
        Site.faults_append_eq_nil, Stmt.clean_whileOf, fourth.declares, nothing]
      refine ⟨?_, ⟨Expr.option_clean_of_eases behind.eases _ clean.1.1.1.2, ?_, ?_⟩, ?_⟩
      · cases initializer with
        | none => rfl
        | some clause => exact (first clause rfl).clean placed.1.1.2 parts.1 clean.1.1.1.1
      · exact fourth.clean placed.1.2.2.2.2 (nothing ▸ behind.deepen) clean.1.2
      · exact Expr.option_clean_of_eases behind.deepen.eases _ clean.1.1.2
      · rw [Stmt.whileOf, Stmt.declares, Stmt.declares, Surroundings.declaring_nil]
        exact tail.clean placed.2 parts.2 clean.2

theorem Stmt.OptionExpands.clean {padding : Padding} {statement statement' : Option Stmt}
    {around around' : Surroundings} :
    Stmt.OptionExpands rule padding statement statement' → Stmt.OptionPlaced statement →
      around.Follows (Stmt.optionDeclares statement) around' →
      Site.faults (Stmt.optionSites around statement) = [] →
      Site.faults (Stmt.optionSites around' statement') = []
  | .none, _, _, _ => rfl
  | .some parts, placed, follows, clean => parts.clean placed.2 follows clean

theorem Stmt.OptionExpands.clauseClean {padding : Padding} {statement statement' : Option Stmt}
    {around around' : Surroundings} :
    Stmt.OptionExpands rule padding statement statement' → Stmt.ClausePlaced statement →
      around.Follows (Stmt.optionDeclares statement) around' →
      Site.faults (Stmt.optionSites around statement) = [] →
      Site.faults (Stmt.optionSites around' statement') = []
  | .none, _, _, _ => rfl
  | .some parts, placed, follows, clean => parts.clean placed.2 follows clean

theorem FunctionDecl.Expands.clean {padding : Padding} {declaration declaration' : FunctionDecl}
    {around around' : Surroundings} :
    declaration.Expands rule padding declaration' → declaration.Placed →
      around'.callee? = around.callee? → around'.inherits? = around.inherits? →
      Site.faults (declaration.sites around) = [] → Site.faults (declaration'.sites around') = []
  | .intro parts, placed, callee, inherits, clean => by
      rw [FunctionDecl.sites, Site.faults_append_eq_nil] at clean ⊢
      exact ⟨Site.clean_declarations (.inr ⟨_, _, _, rfl, rfl⟩) clean.1,
        parts.clean placed.2.2 (.enter callee inherits _ _) clean.2⟩

theorem FunctionDecl.ListExpands.clean {padding : Padding} {methods methods' : List FunctionDecl}
    {around around' : Surroundings} :
    FunctionDecl.ListExpands rule padding methods methods' → FunctionDecl.ListPlaced methods →
      around'.inherits? = around.inherits? →
      Site.faults (FunctionDecl.listSites around methods) = [] →
      Site.faults (FunctionDecl.listSites around' methods') = []
  | .nil, _, _, _ => rfl
  | .cons head tail, placed, inherits, clean => by
      rw [FunctionDecl.listSites, Site.faults_append_eq_nil] at clean ⊢
      rw [head.name]
      refine ⟨head.clean placed.1 ?_ ?_ clean.1, tail.clean placed.2 inherits clean.2⟩
      · rfl
      · exact inherits

end

/-- The expanded program is accepted by binding if the program is. -/
theorem Stmt.ListExpands.accepted {padding : Padding} {program program' : List Stmt}
    {distances distances' : Distances} (expands : Stmt.ListExpands rule padding program program')
    (placed : Stmt.ListPlaced program) (accepted : (bindProgram program distances).1 = []) :
    (bindProgram program' distances').1 = [] := by
  rw [faults_bindProgram] at accepted ⊢
  exact expands.clean placed .top accepted

end Lox
