import Lox.Proofs.Binding.Rules

/-!
# Names in a local scope are distinct

Where the rules find nothing wrong, no name is declared twice in a local scope: neither
by the parameters of a function nor by the statements of a block or body.
-/

namespace Lox

variable {names : List String} {around : Surroundings}

theorem Site.fault?_declaration {name : Token} :
    Site.fault? ⟨.declaration name, .scope names :: around⟩ = none ↔ name.lexeme ∉ names := by
  simp [Site.fault?, Surroundings.Declares, Surroundings.names?]

theorem nodup_declaration {name : Token} (nodup : names.Nodup)
    (clean : Site.fault? ⟨.declaration name, .scope names :: around⟩ = none) :
    (names ++ [name.lexeme]).Nodup := by
  rw [List.nodup_append]
  refine ⟨nodup, List.nodup_singleton _, ?_⟩
  rintro text inside _ (_ | _) rfl
  · exact Site.fault?_declaration.mp clean inside
  · next absent => nomatch absent

theorem Site.faults_cons_eq_nil {first : Site} {rest : List Site} :
    Site.faults (first :: rest) = [] ↔ first.fault? = none ∧ Site.faults rest = [] := by
  simp [Site.faults_eq_nil]

theorem Site.faults_append_eq_nil {front back : List Site} :
    Site.faults (front ++ back) = [] ↔ Site.faults front = [] ∧ Site.faults back = [] := by
  rw [Site.faults_append, List.append_eq_nil_iff]

mutual

/-- A statement declares no name that its scope has already. -/
theorem Stmt.nodup_declares {names : List String} (nodup : names.Nodup) :
    (statement : Stmt) → Site.faults (statement.sites (.scope names :: around)) = [] →
      (names ++ statement.declares).Nodup
  | .var _ _, clean => nodup_declaration nodup (Site.faults_cons_eq_nil.mp clean).1
  | .function _, clean => nodup_declaration nodup (Site.faults_cons_eq_nil.mp clean).1
  | .classDecl _ _ _, clean => nodup_declaration nodup (Site.faults_cons_eq_nil.mp clean).1
  | .conditional _ consequent alternative, clean => by
      rw [Stmt.sites, Site.faults_append_eq_nil, Site.faults_append_eq_nil] at clean
      have first := consequent.nodup_declares nodup clean.1.2
      have second := Stmt.nodup_optionDeclares first alternative clean.2
      rwa [List.append_assoc] at second
  | .whileLoop _ body, clean => by
      rw [Stmt.sites, Site.faults_append_eq_nil] at clean
      exact body.nodup_declares nodup clean.2
  | .forLoop initializer _ _ body, clean => by
      rw [Stmt.sites, Site.faults_append_eq_nil, Site.faults_append_eq_nil,
        Site.faults_append_eq_nil] at clean
      have first := Stmt.nodup_optionDeclares nodup initializer clean.1.1.1
      have second := body.nodup_declares first clean.2
      rwa [List.append_assoc] at second
  | .expression _, _ | .print _, _ | .block _, _ | .returning _ _, _ => by
      simpa [Stmt.declares] using nodup

theorem Stmt.nodup_optionDeclares {names : List String} (nodup : names.Nodup) :
    (statement : Option Stmt) →
      Site.faults (Stmt.optionSites (.scope names :: around) statement) = [] →
      (names ++ Stmt.optionDeclares statement).Nodup
  | none, _ => by simpa [Stmt.optionDeclares] using nodup
  | some statement, clean => statement.nodup_declares nodup clean

end

/-- Statements declare no name twice, and none that their scope has already. -/
theorem Stmt.nodup_listDeclares (nodup : names.Nodup) {statements : List Stmt}
    (clean : Site.faults (Stmt.listSites (.scope names :: around) statements) = []) :
    (names ++ Stmt.listDeclares statements).Nodup := by
  induction statements generalizing names with
  | nil => simpa [Stmt.listDeclares] using nodup
  | cons first rest ih =>
      rw [Stmt.listSites, Site.faults_append_eq_nil] at clean
      have declared := ih (first.nodup_declares nodup clean.1) clean.2
      rwa [List.append_assoc] at declared

/-- No two parameters have the same name, and none has a name that is there already. -/
theorem nodup_declarations (nodup : names.Nodup) {parameters : List Token}
    (clean : Site.faults (Site.declarations (.scope names :: around) parameters) = []) :
    (names ++ parameters.map Token.lexeme).Nodup := by
  induction parameters generalizing names with
  | nil => simpa using nodup
  | cons first rest ih =>
      rw [Site.declarations, Site.faults_cons_eq_nil] at clean
      have declared := ih (nodup_declaration nodup clean.1) clean.2
      rwa [List.append_assoc] at declared

/-- The names in the scope of a function: its parameters and what its body declares. -/
theorem FunctionDecl.nodup_declares {declaration : FunctionDecl}
    (clean : Site.faults (declaration.sites around) = []) :
    (declaration.parameters.map Token.lexeme ++ Stmt.listDeclares declaration.body).Nodup := by
  obtain ⟨name, parameters, body⟩ := declaration
  rw [FunctionDecl.sites, Site.faults_append_eq_nil] at clean
  exact Stmt.nodup_listDeclares (nodup_declarations List.nodup_nil clean.1) clean.2

end Lox
