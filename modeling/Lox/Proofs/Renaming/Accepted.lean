import Lox.Proofs.Binding.Distinct
import Lox.Proofs.Grammar.Leaves
import Lox.Proofs.Renaming.Basic
import Lox.Proofs.Syntax.Placement

/-!
# Renaming in accepted programs

To rename a variable it takes a scope that declares it and a name that the program does
not use. In an accepted program nothing more is needed to keep all other names apart: a
scope that declares the old name as a variable or parameter has no function or class of
that name.
-/

namespace Lox

variable {respelling : Respelling} {marks : Marks}

/-! ## Leaves without the new name -/

/-- No token of a tree is the new name. -/
def Respelling.Unused (respelling : Respelling) (leaves : List Leaf) : Prop :=
  ∀ token, .kept token ∈ leaves → token.lexeme ≠ respelling.new

namespace Respelling

variable {front back leaves : List Leaf} {token : Token}

@[simp] theorem unused_nil : respelling.Unused [] :=
  fun _ inside => nomatch inside

@[simp] theorem unused_append :
    respelling.Unused (front ++ back) ↔ respelling.Unused front ∧ respelling.Unused back := by
  simp only [Unused, List.mem_append, or_imp, forall_and]

@[simp] theorem unused_kept :
    respelling.Unused (.kept token :: leaves) ↔
      token.lexeme ≠ respelling.new ∧ respelling.Unused leaves := by
  simp [Unused]

@[simp] theorem unused_word {kind : Token.Kind} :
    respelling.Unused (.word kind :: leaves) ↔ respelling.Unused leaves := by
  simp [Unused]

theorem unused_names {names : List Token} (unused : respelling.Unused (Token.listLeaves names)) :
    ∀ name ∈ names, name.lexeme ≠ respelling.new := by
  induction names with
  | nil => simp
  | cons first rest ih =>
      cases rest with
      | nil => simpa using unused
      | cons second others =>
          simp only [Token.listLeaves, unused_kept, unused_word] at unused
          exact List.forall_mem_cons.mpr ⟨unused.1, ih unused.2⟩

theorem unused_list {first : Expr} {rest : List Expr}
    (unused : respelling.Unused (Expr.listLeaves (first :: rest))) :
    respelling.Unused first.leaves ∧ respelling.Unused (Expr.listLeaves rest) := by
  cases rest with
  | nil => simpa using unused
  | cons second others => simpa using unused

end Respelling

/-! ## Expressions -/

/-- A keyword is none of the two names. -/
theorem apart_keyword (old : IsOrdinaryName respelling.old) (new : IsOrdinaryName respelling.new)
    {text : String} (keyword : text = "this" ∨ text = "super") :
    text ≠ respelling.old ∧ text ≠ respelling.new := by
  rcases keyword with rfl | rfl
  · exact ⟨old.1.symm, new.1.symm⟩
  · exact ⟨old.2.symm, new.2.symm⟩

mutual

theorem Expr.apart_of_unused (old : IsOrdinaryName respelling.old)
    (new : IsOrdinaryName respelling.new) : (value : Expr) → respelling.Unused value.leaves →
    value.Placed → value.Apart respelling
  | .literal _, _, _ => trivial
  | .grouping inner, unused, placed => by
      simp only [Expr.leaves, Respelling.unused_word, Respelling.unused_append] at unused
      exact inner.apart_of_unused old new unused.1 placed
  | .unary _ operand, unused, placed => by
      simp only [Expr.leaves, Respelling.unused_kept] at unused
      exact operand.apart_of_unused old new unused.2 placed
  | .binary left _ right, unused, placed => by
      simp only [Expr.leaves, Respelling.unused_kept, Respelling.unused_append] at unused
      exact ⟨left.apart_of_unused old new unused.1 placed.1,
        right.apart_of_unused old new unused.2.2 placed.2⟩
  | .logical left _ right, unused, placed => by
      simp only [Expr.leaves, Respelling.unused_kept, Respelling.unused_append] at unused
      exact ⟨left.apart_of_unused old new unused.1 placed.1,
        right.apart_of_unused old new unused.2.2 placed.2⟩
  | .variable _, unused, _ => by
      simp only [Expr.leaves, Respelling.unused_kept] at unused
      exact unused.1
  | .assign _ value, unused, placed => by
      simp only [Expr.leaves, Respelling.unused_kept, Respelling.unused_word] at unused
      exact ⟨unused.1, value.apart_of_unused old new unused.2 placed.2⟩
  | .call callee _ arguments, unused, placed => by
      simp only [Expr.leaves, Respelling.unused_append, Respelling.unused_word] at unused
      exact ⟨callee.apart_of_unused old new unused.1 placed.1,
        Expr.listApart_of_unused old new arguments unused.2.1 placed.2⟩
  | .get object _, unused, placed => by
      simp only [Expr.leaves, Respelling.unused_append] at unused
      exact object.apart_of_unused old new unused.1 placed
  | .set object _ value, unused, placed => by
      simp only [Expr.leaves, Respelling.unused_append, Respelling.unused_kept,
        Respelling.unused_word] at unused
      exact ⟨object.apart_of_unused old new unused.1 placed.1,
        value.apart_of_unused old new unused.2.2 placed.2⟩
  | .this _, _, placed => apart_keyword old new (.inl placed)
  | .super _ _, _, placed => apart_keyword old new (.inr placed)

theorem Expr.listApart_of_unused (old : IsOrdinaryName respelling.old)
    (new : IsOrdinaryName respelling.new) : (values : List Expr) →
    respelling.Unused (Expr.listLeaves values) → Expr.ListPlaced values →
    Expr.ListApart respelling values
  | [], _, _ => trivial
  | first :: rest, unused, placed =>
      have parts := Respelling.unused_list unused
      ⟨first.apart_of_unused old new parts.1 placed.1,
        Expr.listApart_of_unused old new rest parts.2 placed.2⟩

end

/-! ## Functions and classes in a scope -/

theorem append_subset_append {front front' back back' : List String} (first : front ⊆ front')
    (second : back ⊆ back') : front ++ back ⊆ front' ++ back' :=
  List.append_subset.mpr ⟨List.subset_append_of_subset_left _ first,
    List.subset_append_of_subset_right _ second⟩

mutual

theorem Stmt.variables_subset : (statement : Stmt) → statement.variables ⊆ statement.declares
  | .var _ _ => List.Subset.refl _
  | .conditional _ consequent alternative => by
      rw [Stmt.variables, Stmt.declares]
      exact append_subset_append consequent.variables_subset
        (Stmt.optionVariables_subset alternative)
  | .whileLoop _ body => body.variables_subset
  | .forLoop initializer _ _ body => by
      rw [Stmt.variables, Stmt.declares]
      exact append_subset_append (Stmt.optionVariables_subset initializer) body.variables_subset
  | .function _ | .classDecl _ _ _ => List.nil_subset _
  | .expression _ | .print _ | .block _ | .returning _ _ => List.nil_subset _

theorem Stmt.optionVariables_subset :
    (statement : Option Stmt) → Stmt.optionVariables statement ⊆ Stmt.optionDeclares statement
  | none => List.Subset.refl _
  | some statement => statement.variables_subset

end

theorem Stmt.listVariables_subset (statements : List Stmt) :
    Stmt.listVariables statements ⊆ Stmt.listDeclares statements := by
  intro name inside
  obtain ⟨statement, listed, declared⟩ := List.mem_flatMap.mp inside
  exact List.mem_flatMap.mpr ⟨statement, listed, statement.variables_subset declared⟩

/-- The name of a function or class that is declared. -/
def Stmt.fixed? : Stmt → Option Token
  | .function declaration => some declaration.name
  | .classDecl name _ _ => some name
  | _ => none

theorem Stmt.fixed?_of_placed {statement : Stmt} (placed : statement.isDeclaration = false) :
    statement.fixed? = none := by
  cases statement with
  | function _ => nomatch placed
  | classDecl _ _ _ => nomatch placed
  | _ => rfl

/-- In a scope that declares a name as a variable or parameter and no name twice, no
function or class has that name. -/
theorem ne_fixed_of_declared {names : List String} {body : List Stmt}
    (nodup : (names ++ Stmt.listDeclares body).Nodup)
    (declared : respelling.old ∈ names ++ Stmt.listVariables body) {statement : Stmt}
    (inside : statement ∈ body) {name : Token} (fixed : statement.fixed? = some name) :
    name.lexeme ≠ respelling.old := by
  rintro same
  obtain ⟨front, back, rfl⟩ := List.append_of_mem inside
  have alone : statement.declares = [respelling.old] ∧ statement.variables = [] := by
    cases statement <;> cases fixed <;> exact ⟨by rw [← same]; rfl, rfl⟩
  have earlier := Stmt.listVariables_subset front
  have later := Stmt.listVariables_subset back
  unfold Stmt.listVariables at declared earlier later
  unfold Stmt.listDeclares at nodup earlier later
  simp only [List.flatMap_append, List.flatMap_cons, alone.1, alone.2] at nodup declared
  grind

/-! ## Trees -/

theorem FunctionDecl.unused_name {declaration : FunctionDecl}
    (unused : respelling.Unused declaration.leaves) :
    declaration.name.lexeme ≠ respelling.new := by
  obtain ⟨name, parameters, body⟩ := declaration
  exact unused name (.head _)

section Strict

variable (old : IsOrdinaryName respelling.old) (new : IsOrdinaryName respelling.new)
include old new

theorem option_apart_of_unused {value : Option Expr}
    (unused : respelling.Unused (Expr.optionLeaves value)) (placed : Expr.OptionPlaced value) :
    ∀ inner ∈ value, true ∈ marks → inner.Apart respelling := by
  rintro inner rfl _
  exact inner.apart_of_unused old new unused placed

theorem initializer_apart_of_unused {value : Option Expr}
    (unused : respelling.Unused (Expr.initializerLeaves value))
    (placed : Expr.OptionPlaced value) :
    ∀ inner ∈ value, true ∈ marks → inner.Apart respelling := by
  rintro inner rfl _
  simp only [Expr.initializerLeaves, Respelling.unused_word] at unused
  exact inner.apart_of_unused old new unused placed

theorem superclass_apart_of_unused {value : Option Expr}
    (unused : respelling.Unused (Expr.superclassLeaves value))
    (placed : Expr.IsSuperclass value) :
    ∀ inner ∈ value, true ∈ marks → inner.Apart respelling := by
  rintro inner rfl _
  obtain ⟨reference, rfl⟩ := placed
  simp only [Expr.superclassLeaves, Respelling.unused_word] at unused
  exact Expr.apart_of_unused old new _ unused trivial

end Strict

mutual

/-- In an accepted program without the new name, renaming keeps names apart. -/
theorem Stmt.Renames.strict (old : IsOrdinaryName respelling.old)
    (new : IsOrdinaryName respelling.new) {around : Surroundings} {marks : Marks}
    {statement statement' : Stmt} :
    statement.Renames respelling respelling.declared marks statement' →
      respelling.Unused statement.leaves → statement.Placed →
      Site.faults (statement.sites around) = [] →
      (∀ name ∈ statement.fixed?, marks.here = true → name.lexeme ≠ respelling.old) →
      statement.Renames respelling respelling.apart marks statement'
  | .expression _, unused, placed, _, _ => by
      simp only [Stmt.leaves, Respelling.unused_append] at unused
      exact .expression fun _ => Expr.apart_of_unused old new _ unused.1 placed
  | .print _, unused, placed, _, _ => by
      simp only [Stmt.leaves, Respelling.unused_append, Respelling.unused_word] at unused
      exact .print fun _ => Expr.apart_of_unused old new _ unused.1 placed
  | .var _ _, unused, placed, _, _ => by
      simp only [Stmt.leaves, Respelling.unused_append, Respelling.unused_word,
        Respelling.unused_kept] at unused
      exact .var (fun _ => unused.1) (initializer_apart_of_unused old new unused.2.1 placed.2)
  | .block mark declares parts, unused, placed, clean, _ => by
      simp only [Stmt.leaves, Respelling.unused_append, Respelling.unused_word] at unused
      refine .block mark (fun _ => trivial) (parts.strict old new unused.1 placed clean ?_)
      rintro statement inside name fixed rfl
      have nodup := Stmt.nodup_listDeclares List.nodup_nil clean
      exact ne_fixed_of_declared nodup (declares rfl) inside fixed
  | .conditional _ second third, unused, placed, clean, _ => by
      simp only [Stmt.leaves, Respelling.unused_append, Respelling.unused_word] at unused
      rw [Stmt.sites, Site.faults_append_eq_nil, Site.faults_append_eq_nil] at clean
      refine .conditional (fun _ => Expr.apart_of_unused old new _ unused.1 placed.1)
        (second.strict old new unused.2.1 placed.2.1.2 clean.1.2 ?_)
        (third.strict old new unused.2.2 placed.2.2 clean.2)
      simp [Stmt.fixed?_of_placed placed.2.1.1]
  | .whileLoop _ second, unused, placed, clean, _ => by
      simp only [Stmt.leaves, Respelling.unused_append, Respelling.unused_word] at unused
      rw [Stmt.sites, Site.faults_append_eq_nil] at clean
      refine .whileLoop (fun _ => Expr.apart_of_unused old new _ unused.1 placed.1)
        (second.strict old new unused.2 placed.2.2 clean.2 ?_)
      simp [Stmt.fixed?_of_placed placed.2.1]
  | .forLoop first _ _ fourth, unused, placed, clean, _ => by
      simp only [Stmt.leaves, Respelling.unused_append, Respelling.unused_word] at unused
      rw [Stmt.sites, Site.faults_append_eq_nil, Site.faults_append_eq_nil,
        Site.faults_append_eq_nil] at clean
      refine .forLoop (first.strictClause old new unused.1 placed.1 clean.1.1.1)
        (option_apart_of_unused old new unused.2.1 placed.2.1)
        (option_apart_of_unused old new unused.2.2.1 placed.2.2.1)
        (fourth.strict old new unused.2.2.2 placed.2.2.2.2 clean.2 ?_)
      simp [Stmt.fixed?_of_placed placed.2.2.2.1]
  | .function _ parts, unused, placed, clean, fixed => by
      simp only [Stmt.leaves, Respelling.unused_word] at unused
      rw [Stmt.sites, Site.faults_cons_eq_nil] at clean
      refine .function ⟨fun _ => ?_, fixed _ rfl⟩ (parts.strict old new unused placed clean.2)
      exact FunctionDecl.unused_name unused
  | .returning _, unused, placed, _, _ => by
      simp only [Stmt.leaves, Respelling.unused_append, Respelling.unused_kept] at unused
      exact .returning (option_apart_of_unused old new unused.2.1 placed)
  | .classDecl _ _ parts, unused, placed, clean, fixed => by
      simp only [Stmt.leaves, Respelling.unused_append, Respelling.unused_word,
        Respelling.unused_kept] at unused
      rw [Stmt.sites, Site.faults_append_eq_nil] at clean
      exact .classDecl ⟨fun _ => unused.1, fixed _ rfl⟩
        (superclass_apart_of_unused old new unused.2.1 placed.2.1)
        (parts.strict old new unused.2.2.1 placed.2.2 clean.2)

theorem Stmt.ListRenames.strict (old : IsOrdinaryName respelling.old)
    (new : IsOrdinaryName respelling.new) {around : Surroundings} {marks : Marks}
    {body body' : List Stmt} :
    Stmt.ListRenames respelling respelling.declared marks body body' →
      respelling.Unused (Stmt.listLeaves body) → Stmt.ListPlaced body →
      Site.faults (Stmt.listSites around body) = [] →
      (∀ statement ∈ body, ∀ name ∈ statement.fixed?, marks.here = true →
        name.lexeme ≠ respelling.old) →
      Stmt.ListRenames respelling respelling.apart marks body body'
  | .nil, _, _, _, _ => .nil
  | .cons head tail, unused, placed, clean, fixed => by
      simp only [Stmt.listLeaves, Respelling.unused_append] at unused
      rw [Stmt.listSites, Site.faults_append_eq_nil] at clean
      exact .cons (head.strict old new unused.1 placed.1 clean.1 (fixed _ (.head _)))
        (tail.strict old new unused.2 placed.2 clean.2
          fun statement inside => fixed statement (.tail _ inside))

theorem Stmt.OptionRenames.strict (old : IsOrdinaryName respelling.old)
    (new : IsOrdinaryName respelling.new) {around : Surroundings} {marks : Marks}
    {statement statement' : Option Stmt} :
    Stmt.OptionRenames respelling respelling.declared marks statement statement' →
      respelling.Unused (Stmt.alternativeLeaves statement) → Stmt.OptionPlaced statement →
      Site.faults (Stmt.optionSites around statement) = [] →
      Stmt.OptionRenames respelling respelling.apart marks statement statement'
  | .none, _, _, _ => .none
  | .some parts, unused, placed, clean => by
      simp only [Stmt.alternativeLeaves, Respelling.unused_word] at unused
      refine .some (parts.strict old new unused placed.2 clean ?_)
      simp [Stmt.fixed?_of_placed placed.1]

theorem Stmt.OptionRenames.strictClause (old : IsOrdinaryName respelling.old)
    (new : IsOrdinaryName respelling.new) {around : Surroundings} {marks : Marks}
    {statement statement' : Option Stmt} :
    Stmt.OptionRenames respelling respelling.declared marks statement statement' →
      respelling.Unused (Stmt.clauseLeaves statement) → Stmt.ClausePlaced statement →
      Site.faults (Stmt.optionSites around statement) = [] →
      Stmt.OptionRenames respelling respelling.apart marks statement statement'
  | .none, _, _, _ => .none
  | .some parts, unused, placed, clean => by
      refine .some (parts.strict old new unused placed.2 clean ?_)
      rcases placed.1 with ⟨_, _, rfl⟩ | ⟨_, rfl⟩ <;> simp [Stmt.fixed?]

theorem FunctionDecl.Renames.strict (old : IsOrdinaryName respelling.old)
    (new : IsOrdinaryName respelling.new) {around : Surroundings} {marks : Marks}
    {declaration declaration' : FunctionDecl} :
    declaration.Renames respelling respelling.declared marks declaration' →
      respelling.Unused declaration.leaves → declaration.Placed →
      Site.faults (declaration.sites around) = [] →
      declaration.Renames respelling respelling.apart marks declaration'
  | .intro mark declares _ parts, unused, placed, clean => by
      have nodup := FunctionDecl.nodup_declares clean
      simp only [FunctionDecl.leaves, Respelling.unused_append, Respelling.unused_word,
        Respelling.unused_kept] at unused
      rw [FunctionDecl.sites, Site.faults_append_eq_nil] at clean
      refine .intro mark (fun _ => trivial)
        (fun parameter inside _ => Respelling.unused_names unused.2.1 parameter inside)
        (parts.strict old new unused.2.2.1 placed.2.2 clean.2 ?_)
      rintro statement inside name fixed rfl
      exact ne_fixed_of_declared nodup (declares rfl) inside fixed

theorem FunctionDecl.ListRenames.strict (old : IsOrdinaryName respelling.old)
    (new : IsOrdinaryName respelling.new) {around : Surroundings} {marks : Marks}
    {methods methods' : List FunctionDecl} :
    FunctionDecl.ListRenames respelling respelling.declared marks methods methods' →
      respelling.Unused (FunctionDecl.listLeaves methods) → FunctionDecl.ListPlaced methods →
      Site.faults (FunctionDecl.listSites around methods) = [] →
      FunctionDecl.ListRenames respelling respelling.apart marks methods methods'
  | .nil, _, _, _ => .nil
  | .cons head tail, unused, placed, clean => by
      simp only [FunctionDecl.listLeaves, Respelling.unused_append] at unused
      rw [FunctionDecl.listSites, Site.faults_append_eq_nil] at clean
      exact .cons (head.strict old new unused.1 placed.1 clean.1)
        (tail.strict old new unused.2 placed.2 clean.2)

end

end Lox
