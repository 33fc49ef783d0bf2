import Lox.Proofs.Grammar.Soundness.Expression

/-!
# Statements are read by the rules

The same for statements, and from it what an accepted program is. A declaration
with a fault in it leaves its trace among the faults reported, so nothing that
recovery passes over can be part of an accepted program.
-/

namespace Lox.Grammar

open Reading

variable {bound : Nat} {before after : Cursor}

/-! ## Parts of statements -/

theorem sound_name (fault : SyntaxFault) :
    Sound (expect .identifier fault) Name fun _ => [] := by
  intro before name after read
  refine (leads_expect read).imp ?_
  rintro ⟨kind, shape, next⟩
  rw [shape, next]
  exact ⟨.identifier kind, .nil (Nat.le_refl _)⟩

theorem sound_expressionUnless (kind : Token.Kind) (bound : Nat) :
    Sound (expressionUnless kind bound) (Optional Expression) Expr.optionNumbers := by
  intro before value after read
  obtain ⟨absent, _, sees, read⟩ := bind_ok.mp read
  obtain ⟨rfl, rfl⟩ := sees_ok.mp sees
  split at read
  · obtain ⟨rfl, rfl⟩ := pure_ok.mp read
    exact .of_eq ⟨.none, .nil (Nat.le_refl _)⟩ rfl rfl
  · obtain ⟨value, last, readValue, read⟩ := bind_ok.mp read
    obtain ⟨rfl, rfl⟩ := pure_ok.mp read
    refine (sound_expression bound readValue).imp ?_
    rintro ⟨derivation, fresh⟩
    exact ⟨.some derivation, fresh⟩

theorem sound_initialValue (bound : Nat) :
    Sound (initialValue bound)
      (fun before value after => ∀ keyword name stop last, after = stop :: last →
        keyword.kind = .keyword .var → name.kind = .identifier → stop.kind = .mark .semicolon →
        VariableDeclaration (keyword :: name :: before) (.var name value) last)
      Expr.optionNumbers := by
  intro before value after read
  obtain ⟨given, middle, accepted, read⟩ := bind_ok.mp read
  cases given with
  | true =>
      obtain ⟨value, last, readValue, read⟩ := bind_ok.mp read
      obtain ⟨rfl, rfl⟩ := pure_ok.mp read
      refine ((leads_accepts accepted).trans (sound_expression bound readValue)).imp ?_
      rintro ⟨⟨equals, equal, shape, next⟩, derivation, fresh⟩
      rw [shape, ← next]
      refine ⟨?_, fresh⟩
      intro keyword name stop last behind keywordKind nameKind stopKind
      rw [behind] at derivation
      exact .initialized keywordKind nameKind equal derivation stopKind
  | false =>
      obtain rfl := accepts_false accepted
      obtain ⟨rfl, rfl⟩ := pure_ok.mp read
      refine .of_eq ⟨?_, .nil (Nat.le_refl _)⟩ rfl rfl
      intro keyword name stop last behind keywordKind nameKind stopKind
      rw [behind]
      exact .bare keywordKind nameKind stopKind

/-- The keyword stands in front of what is read. -/
theorem sound_variableDeclaration (bound : Nat) :
    Sound (variableDeclaration bound)
      (fun before statement after => ∀ keyword, keyword.kind = .keyword .var →
        VariableDeclaration (keyword :: before) statement after)
      Stmt.numbers := by
  intro before statement after read
  obtain ⟨name, middle, readName, read⟩ := bind_ok.mp read
  obtain ⟨value, last, readValue, read⟩ := bind_ok.mp read
  obtain ⟨stop, final, readStop, read⟩ := bind_ok.mp read
  obtain ⟨rfl, rfl⟩ := pure_ok.mp read
  have leads := (leads_expect readName).trans
    ((sound_initialValue bound readValue).trans (leads_expect readStop))
  refine leads.imp ?_
  rintro ⟨⟨nameKind, nameShape, nameNext⟩, ⟨derivation, fresh⟩, stopKind, stopShape, stopNext⟩
  rw [nameShape, stopNext, ← nameNext, Stmt.numbers]
  refine ⟨?_, fresh⟩
  intro keyword keywordKind
  exact derivation keyword name stop final.rest stopShape keywordKind nameKind stopKind

theorem sound_expressionStatement (bound : Nat) :
    Sound (expressionStatement bound) ExpressionStatement Stmt.numbers := by
  intro before statement after read
  obtain ⟨value, middle, readValue, read⟩ := bind_ok.mp read
  obtain ⟨stop, last, readStop, read⟩ := bind_ok.mp read
  obtain ⟨rfl, rfl⟩ := pure_ok.mp read
  refine ((sound_expression bound readValue).trans (leads_expect readStop)).imp ?_
  rintro ⟨⟨derivation, fresh⟩, kind, shape, next⟩
  rw [shape] at derivation
  rw [next, Stmt.numbers]
  exact ⟨.intro derivation kind, fresh⟩

theorem sound_forInitializer (bound : Nat) :
    Sound (forInitializer bound) ForInitializer Stmt.optionNumbers := by
  intro before initializer after read
  obtain ⟨absent, middle, accepted, read⟩ := bind_ok.mp read
  cases absent with
  | true =>
      obtain ⟨rfl, rfl⟩ := pure_ok.mp read
      refine (leads_accepts accepted).imp ?_
      rintro ⟨stop, kind, shape, next⟩
      rw [shape, next]
      exact ⟨.none kind, .nil (Nat.le_refl _)⟩
  | false =>
      obtain rfl := accepts_false accepted
      obtain ⟨declared, middle, accepted, read⟩ := bind_ok.mp read
      cases declared with
      | true =>
          obtain ⟨statement, last, readStatement, read⟩ := bind_ok.mp read
          obtain ⟨rfl, rfl⟩ := pure_ok.mp read
          refine ((leads_accepts accepted).trans
            (sound_variableDeclaration bound readStatement)).imp ?_
          rintro ⟨⟨keyword, kind, shape, next⟩, derivation, fresh⟩
          rw [shape, ← next]
          exact ⟨.var (derivation keyword kind), fresh⟩
      | false =>
          obtain rfl := accepts_false accepted
          obtain ⟨statement, last, readStatement, read⟩ := bind_ok.mp read
          obtain ⟨rfl, rfl⟩ := pure_ok.mp read
          refine (sound_expressionStatement bound readStatement).imp ?_
          rintro ⟨derivation, fresh⟩
          exact ⟨.expression derivation, fresh⟩

theorem sound_superclass : Sound superclass Superclass Expr.optionNumbers := by
  intro before value after read
  obtain ⟨named, middle, accepted, read⟩ := bind_ok.mp read
  cases named with
  | true =>
      obtain ⟨name, last, readName, read⟩ := bind_ok.mp read
      obtain ⟨reference, final, referred, read⟩ := bind_ok.mp read
      obtain ⟨rfl, rfl⟩ := pure_ok.mp read
      have leads := (leads_accepts accepted).trans
        ((leads_expect readName).trans (leads_refer referred))
      refine leads.imp ?_
      rintro ⟨⟨less, kind, shape, next⟩, ⟨nameKind, nameShape, nameNext⟩, rfl, same, used⟩
      rw [shape, nameShape, same, used, nameNext, next]
      exact ⟨.some kind nameKind, .single _⟩
  | false =>
      obtain rfl := accepts_false accepted
      obtain ⟨rfl, rfl⟩ := pure_ok.mp read
      exact .of_eq ⟨.none, .nil (Nat.le_refl _)⟩ rfl rfl

/-! ## Declarations one after another -/

/-- A declaration that was recovered from has reported its fault. -/
theorem recovering_ok {declaration : Reading Stmt} {found : Option Stmt}
    (read : recovering declaration before = .ok found after) :
    (∃ statement, found = some statement ∧ declaration before = .ok statement after) ∨
      after.reported ≠ [] := by
  unfold recovering at read
  cases outcome : declaration before with
  | ok statement middle =>
      rw [outcome] at read
      cases read
      exact .inl ⟨statement, rfl, rfl⟩
  | error diagnostic middle =>
      rw [outcome] at read
      cases read
      exact .inr (by simp)

/-- A bound on the tokens left is never what ends the declarations. -/
theorem sound_declarationsUntil {closing : Reading Bool} (closes : List Token → Bool)
    {declaration : Reading Stmt} {rule : Rule Stmt}
    (look : ∀ cursor, closing cursor = .ok (closes cursor.rest) cursor)
    (sound : Sound declaration rule Stmt.numbers) :
    Sound (declarationsUntil closing declaration bound)
      (fun before statements after => Many rule before statements after ∧
        (rule.Shortens → before.length ≤ bound → after = [] ∨ closes after = true))
      Stmt.listNumbers := by
  induction bound with
  | zero =>
      intro before statements after read
      obtain ⟨rfl, rfl⟩ := pure_ok.mp read
      refine .of_eq ⟨⟨.none, ?_⟩, .nil (Nat.le_refl _)⟩ rfl rfl
      intro _ enough
      exact .inl (List.length_eq_zero_iff.mp (Nat.le_zero.mp enough))
  | succ bound ih =>
      intro before statements after read
      simp only [declarationsUntil] at read
      obtain ⟨finished, _, atEnd, read⟩ := bind_ok.mp read
      obtain ⟨rfl, rfl⟩ := isAtEnd_ok.mp atEnd
      obtain ⟨closed, middle, looked, read⟩ := bind_ok.mp read
      rw [look] at looked
      cases looked
      split at read
      · rename_i ended
        obtain ⟨rfl, rfl⟩ := pure_ok.mp read
        refine .of_eq ⟨⟨.none, fun _ _ => ?_⟩, .nil (Nat.le_refl _)⟩ rfl rfl
        simpa using ended
      · obtain ⟨first, middle, readFirst, read⟩ := bind_ok.mp read
        obtain ⟨others, last, readOthers, read⟩ := bind_ok.mp read
        obtain ⟨rfl, rfl⟩ := pure_ok.mp read
        obtain ⟨statement, rfl, readStatement⟩ | disturbed := recovering_ok readFirst
        · refine ((sound readStatement).trans (ih readOthers)).imp ?_
          rintro ⟨⟨derivation, fresh⟩, ⟨derivations, exhausted⟩, freshOthers⟩
          refine ⟨⟨.more derivation derivations, fun shortens enough => exhausted shortens ?_⟩,
            fresh.append freshOthers⟩
          have progress := shortens derivation
          omega
        · intro quiet
          exact absurd (ih readOthers quiet).1 disturbed

/-! ## Statements -/

/-- A rule where no `else` is left behind for an `if` that is still open. -/
def Greedy (rule : Rule Stmt) : Rule Stmt := fun before statement after =>
  rule before statement after ∧
    (endsOpen statement = true → front (.keyword .else) after = false)

theorem Sound.of_greedy {reading : Reading Stmt} {rule : Rule Stmt}
    (sound : Sound reading (Greedy rule) Stmt.numbers) : Sound reading rule Stmt.numbers := by
  intro before statement after read
  refine (sound read).imp ?_
  rintro ⟨⟨derivation, _⟩, fresh⟩
  exact ⟨derivation, fresh⟩

section Statements

variable {nested : Position → Reading Stmt} {inner : Position → Rule Stmt}
variable (sound : ∀ position, Sound (nested position) (Greedy (inner position)) Stmt.numbers)

include sound

/-- The opening brace stands in front of what is read. -/
theorem sound_block :
    Sound (block nested bound)
      (fun before body after => ∀ opening, opening.kind = .mark .leftBrace →
        Block (inner .declaration) (opening :: before) body after)
      Stmt.listNumbers := by
  intro before body after read
  obtain ⟨body, middle, readBody, read⟩ := bind_ok.mp read
  obtain ⟨closing, last, readClosing, read⟩ := bind_ok.mp read
  obtain ⟨rfl, rfl⟩ := pure_ok.mp read
  have look (cursor : Cursor) :
      sees (.mark .rightBrace) cursor = .ok (front (.mark .rightBrace) cursor.rest) cursor :=
    sees_ok.mpr ⟨rfl, rfl⟩
  have leads := sound_declarationsUntil _ look (sound .declaration).of_greedy readBody
  refine (leads.trans (leads_expect readClosing)).imp ?_
  rintro ⟨⟨⟨derivation, _⟩, fresh⟩, kind, shape, next⟩
  rw [shape] at derivation
  rw [next]
  exact ⟨fun opening openingKind => .intro openingKind derivation kind, fresh⟩

theorem sound_function (form : FunctionForm) :
    Sound (function nested bound form) (Function (inner .declaration)) FunctionDecl.numbers := by
  intro before declaration after read
  obtain ⟨name, _, readName, read⟩ := bind_ok.mp read
  obtain ⟨opening, _, readOpening, read⟩ := bind_ok.mp read
  obtain ⟨parameters, _, readParameters, read⟩ := bind_ok.mp read
  obtain ⟨closing, _, readClosing, read⟩ := bind_ok.mp read
  obtain ⟨brace, _, readBrace, read⟩ := bind_ok.mp read
  obtain ⟨body, _, readBody, read⟩ := bind_ok.mp read
  obtain ⟨rfl, rfl⟩ := pure_ok.mp read
  have leads := (leads_expect readName).trans ((leads_expect readOpening).trans
    ((sound_separated (sound_name _) readParameters).trans ((leads_expect readClosing).trans
      ((leads_expect readBrace).trans (sound_block sound readBody)))))
  refine leads.imp ?_
  rintro ⟨⟨nameKind, nameShape, nameNext⟩, ⟨openingKind, openingShape, openingNext⟩,
    ⟨listed, freshParameters⟩, ⟨closingKind, closingShape, closingNext⟩,
    ⟨braceKind, braceShape, braceNext⟩, derivation, fresh⟩
  rw [closingShape] at listed
  have body := derivation brace braceKind
  rw [← braceShape] at body
  rw [nameShape, openingShape, ← nameNext, ← openingNext]
  rw [braceNext, closingNext] at fresh
  exact ⟨.intro nameKind openingKind listed closingKind body, fresh.after freshParameters.le⟩

theorem sound_methods {count : Nat} :
    Sound (methods (function nested bound .method) count) (Many (Function (inner .declaration)))
      FunctionDecl.listNumbers := by
  induction count with
  | zero =>
      intro before members after read
      obtain ⟨rfl, rfl⟩ := pure_ok.mp read
      exact .of_eq ⟨.none, .nil (Nat.le_refl _)⟩ rfl rfl
  | succ count ih =>
      intro before members after read
      simp only [methods] at read
      obtain ⟨finished, _, atEnd, read⟩ := bind_ok.mp read
      obtain ⟨rfl, rfl⟩ := isAtEnd_ok.mp atEnd
      obtain ⟨closed, _, sees, read⟩ := bind_ok.mp read
      obtain ⟨rfl, rfl⟩ := sees_ok.mp sees
      split at read
      · obtain ⟨rfl, rfl⟩ := pure_ok.mp read
        exact .of_eq ⟨.none, .nil (Nat.le_refl _)⟩ rfl rfl
      · obtain ⟨first, middle, readFirst, read⟩ := bind_ok.mp read
        obtain ⟨others, last, readOthers, read⟩ := bind_ok.mp read
        obtain ⟨rfl, rfl⟩ := pure_ok.mp read
        refine ((sound_function sound .method readFirst).trans (ih readOthers)).imp ?_
        rintro ⟨⟨derivation, fresh⟩, derivations, freshOthers⟩
        exact ⟨.more derivation derivations, fresh.append freshOthers⟩

/-- The keyword stands in front of what is read. -/
theorem sound_classDeclaration :
    Sound (classDeclaration nested bound)
      (fun before statement after => ∀ keyword, keyword.kind = .keyword .class →
        Greedy (Declaration inner) (keyword :: before) statement after)
      Stmt.numbers := by
  intro before statement after read
  obtain ⟨name, _, readName, read⟩ := bind_ok.mp read
  obtain ⟨parent, _, readParent, read⟩ := bind_ok.mp read
  obtain ⟨opening, _, readOpening, read⟩ := bind_ok.mp read
  obtain ⟨members, _, readMembers, read⟩ := bind_ok.mp read
  obtain ⟨closing, _, readClosing, read⟩ := bind_ok.mp read
  obtain ⟨rfl, rfl⟩ := pure_ok.mp read
  have leads := (leads_expect readName).trans ((sound_superclass readParent).trans
    ((leads_expect readOpening).trans ((sound_methods sound readMembers).trans
      (leads_expect readClosing))))
  refine leads.imp ?_
  rintro ⟨⟨nameKind, nameShape, nameNext⟩, ⟨parent, freshParent⟩,
    ⟨openingKind, openingShape, openingNext⟩, ⟨members, freshMembers⟩,
    closingKind, closingShape, closingNext⟩
  rw [openingShape] at parent
  rw [closingShape] at members
  rw [openingNext] at freshMembers
  rw [nameShape, closingNext, ← nameNext, Stmt.numbers]
  refine ⟨?_, freshParent.append freshMembers⟩
  intro keyword kind
  exact ⟨.classDecl kind nameKind parent openingKind members closingKind, by simp⟩

/-- An alternative is read whenever its keyword comes next. -/
theorem sound_alternative :
    Sound (alternative nested)
      (fun before other after =>
        (other = none ∧ before = after ∧ front (.keyword .else) before = false) ∨
        ∃ keyword behind statement, other = some statement ∧ before = keyword :: behind ∧
          keyword.kind = .keyword .else ∧ Greedy (inner .statement) behind statement after)
      Stmt.optionNumbers := by
  intro before other after read
  obtain ⟨given, middle, accepted, read⟩ := bind_ok.mp read
  cases given with
  | true =>
      obtain ⟨statement, last, readStatement, read⟩ := bind_ok.mp read
      obtain ⟨rfl, rfl⟩ := pure_ok.mp read
      refine ((leads_accepts accepted).trans (sound .statement readStatement)).imp ?_
      rintro ⟨⟨keyword, kind, shape, next⟩, derivation, fresh⟩
      rw [← next]
      exact ⟨.inr ⟨keyword, _, statement, rfl, shape, kind, derivation⟩, fresh⟩
  | false =>
      obtain ⟨_, rfl, unseen⟩ | ⟨_, _, impossible, _⟩ := accepts_ok.mp accepted
      · obtain ⟨rfl, rfl⟩ := pure_ok.mp read
        exact .of_eq ⟨.inl ⟨rfl, rfl, unseen⟩, .nil (Nat.le_refl _)⟩ rfl rfl
      · cases impossible

/-- The keyword stands in front of what is read. The nearest `if` takes the
`else`, because an inner one that was left open would have taken it before. -/
theorem sound_conditional :
    Sound (conditional nested bound)
      (fun before statement after => ∀ keyword, keyword.kind = .keyword .if →
        Greedy (Plain inner) (keyword :: before) statement after)
      Stmt.numbers := by
  intro before statement after read
  obtain ⟨opening, _, readOpening, read⟩ := bind_ok.mp read
  obtain ⟨condition, _, readCondition, read⟩ := bind_ok.mp read
  obtain ⟨closing, _, readClosing, read⟩ := bind_ok.mp read
  obtain ⟨consequent, middle, readConsequent, read⟩ := bind_ok.mp read
  obtain ⟨other, _, readOther, read⟩ := bind_ok.mp read
  obtain ⟨rfl, rfl⟩ := pure_ok.mp read
  have leads := (leads_expect readOpening).trans
    ((sound_expression bound readCondition).trans ((leads_expect readClosing).trans
      ((sound .statement readConsequent).trans (sound_alternative sound readOther))))
  refine leads.imp ?_
  rintro ⟨⟨openingKind, openingShape, openingNext⟩, ⟨condition, freshCondition⟩,
    ⟨closingKind, closingShape, closingNext⟩, ⟨⟨derivation, greedy⟩, freshConsequent⟩,
    other, freshOther⟩
  rw [closingShape] at condition
  rw [closingNext] at freshConsequent
  rw [openingShape, ← openingNext, Stmt.numbers]
  refine ⟨?_, (freshCondition.append freshConsequent).append freshOther⟩
  intro keyword kind
  rcases other with ⟨rfl, same, unseen⟩ | ⟨otherwise, behind, alternative, rfl, shape,
    otherwiseKind, alternativeDerivation, greedyAlternative⟩
  · rw [same] at derivation unseen
    exact ⟨.conditional kind openingKind condition closingKind derivation, fun _ => unseen⟩
  · rw [shape] at derivation greedy
    have closed : endsOpen consequent = false := by
      cases ending : endsOpen consequent with
      | false => rfl
      | true => simpa [front, otherwiseKind] using greedy ending
    refine ⟨.alternative kind openingKind condition closingKind derivation closed otherwiseKind
      alternativeDerivation, ?_⟩
    simpa using greedyAlternative

/-- The keyword stands in front of what is read. -/
theorem sound_whileLoop :
    Sound (whileLoop nested bound)
      (fun before statement after => ∀ keyword, keyword.kind = .keyword .while →
        Greedy (Plain inner) (keyword :: before) statement after)
      Stmt.numbers := by
  intro before statement after read
  obtain ⟨opening, _, readOpening, read⟩ := bind_ok.mp read
  obtain ⟨condition, _, readCondition, read⟩ := bind_ok.mp read
  obtain ⟨closing, _, readClosing, read⟩ := bind_ok.mp read
  obtain ⟨body, _, readBody, read⟩ := bind_ok.mp read
  obtain ⟨rfl, rfl⟩ := pure_ok.mp read
  have leads := (leads_expect readOpening).trans
    ((sound_expression bound readCondition).trans ((leads_expect readClosing).trans
      (sound .statement readBody)))
  refine leads.imp ?_
  rintro ⟨⟨openingKind, openingShape, openingNext⟩, ⟨condition, freshCondition⟩,
    ⟨closingKind, closingShape, closingNext⟩, ⟨body, greedy⟩, freshBody⟩
  rw [closingShape] at condition
  rw [closingNext] at freshBody
  rw [openingShape, ← openingNext, Stmt.numbers]
  refine ⟨?_, freshCondition.append freshBody⟩
  intro keyword kind
  exact ⟨.whileLoop kind openingKind condition closingKind body, by simpa using greedy⟩

/-- The keyword stands in front of what is read. -/
theorem sound_forLoop :
    Sound (forLoop nested bound)
      (fun before statement after => ∀ keyword, keyword.kind = .keyword .for →
        Greedy (Plain inner) (keyword :: before) statement after)
      Stmt.numbers := by
  intro before statement after read
  obtain ⟨opening, _, readOpening, read⟩ := bind_ok.mp read
  obtain ⟨initializer, _, readInitializer, read⟩ := bind_ok.mp read
  obtain ⟨condition, _, readCondition, read⟩ := bind_ok.mp read
  obtain ⟨stop, _, readStop, read⟩ := bind_ok.mp read
  obtain ⟨increment, _, readIncrement, read⟩ := bind_ok.mp read
  obtain ⟨closing, _, readClosing, read⟩ := bind_ok.mp read
  obtain ⟨body, _, readBody, read⟩ := bind_ok.mp read
  obtain ⟨rfl, rfl⟩ := pure_ok.mp read
  have leads := (leads_expect readOpening).trans
    ((sound_forInitializer bound readInitializer).trans
      ((sound_expressionUnless _ bound readCondition).trans ((leads_expect readStop).trans
        ((sound_expressionUnless _ bound readIncrement).trans ((leads_expect readClosing).trans
          (sound .statement readBody))))))
  refine leads.imp ?_
  rintro ⟨⟨openingKind, openingShape, openingNext⟩, ⟨initializer, freshInitializer⟩,
    ⟨condition, freshCondition⟩, ⟨stopKind, stopShape, stopNext⟩,
    ⟨increment, freshIncrement⟩, ⟨closingKind, closingShape, closingNext⟩,
    ⟨body, greedy⟩, freshBody⟩
  rw [stopShape] at condition
  rw [closingShape] at increment
  rw [stopNext] at freshIncrement
  rw [closingNext] at freshBody
  rw [openingShape, ← openingNext, Stmt.numbers]
  refine ⟨?_, ((freshInitializer.append freshCondition).append freshIncrement).append freshBody⟩
  intro keyword kind
  exact ⟨.forLoop kind openingKind initializer condition stopKind increment closingKind body,
    by simpa using greedy⟩

end Statements

/-- The keyword stands in front of what is read. -/
theorem sound_printStatement {inner : Position → Rule Stmt} :
    Sound (printStatement bound)
      (fun before statement after => ∀ keyword, keyword.kind = .keyword .print →
        Greedy (Plain inner) (keyword :: before) statement after)
      Stmt.numbers := by
  intro before statement after read
  obtain ⟨value, middle, readValue, read⟩ := bind_ok.mp read
  obtain ⟨stop, last, readStop, read⟩ := bind_ok.mp read
  obtain ⟨rfl, rfl⟩ := pure_ok.mp read
  refine ((sound_expression bound readValue).trans (leads_expect readStop)).imp ?_
  rintro ⟨⟨derivation, fresh⟩, stopKind, shape, next⟩
  rw [shape] at derivation
  rw [next, Stmt.numbers]
  refine ⟨?_, fresh⟩
  intro keyword kind
  exact ⟨.print kind derivation stopKind, by simp⟩

/-- The keyword stands in front of what is read, and the statement keeps it. -/
theorem sound_returnStatement {inner : Position → Rule Stmt} {keyword : Token}
    (kind : keyword.kind = .keyword .return) :
    Sound (returnStatement keyword bound)
      (fun before statement after => Greedy (Plain inner) (keyword :: before) statement after)
      Stmt.numbers := by
  intro before statement after read
  obtain ⟨value, middle, readValue, read⟩ := bind_ok.mp read
  obtain ⟨stop, last, readStop, read⟩ := bind_ok.mp read
  obtain ⟨rfl, rfl⟩ := pure_ok.mp read
  refine ((sound_expressionUnless _ bound readValue).trans (leads_expect readStop)).imp ?_
  rintro ⟨⟨derivation, fresh⟩, stopKind, shape, next⟩
  rw [shape] at derivation
  rw [next, Stmt.numbers]
  exact ⟨⟨.returning kind derivation stopKind, by simp⟩, fresh⟩

/-- A reading behind a keyword that was seen and passed over. -/
theorem Sound.behind {reading : Reading Stmt} {behind rule : Rule Stmt} {result : Stmt}
    {kind : Token.Kind} (sound : Sound reading behind Stmt.numbers)
    (seen : before.peek.kind = kind) (inside : kind ≠ .stop)
    (restored : ∀ {rest result after}, behind rest result after →
      rule (before.peek :: rest) result after)
    (read : (do skip; reading : Reading Stmt) before = .ok result after) :
    before.Leads after (rule before.rest result after.rest ∧
      Fresh before.nextReference after.nextReference result.numbers) := by
  obtain ⟨_, middle, skipped, read⟩ := bind_ok.mp read
  refine ((leads_skip skipped seen inside).trans (sound read)).imp ?_
  rintro ⟨⟨shape, next⟩, derivation, fresh⟩
  rw [shape, ← next]
  exact ⟨restored derivation, fresh⟩

section Statements

variable {nested : Position → Reading Stmt} {inner : Position → Rule Stmt}
variable (sound : ∀ position, Sound (nested position) (Greedy (inner position)) Stmt.numbers)

include sound

theorem sound_plainStatement :
    Sound (plainStatement nested bound) (Greedy (Plain inner)) Stmt.numbers := by
  intro before statement after read
  obtain ⟨keyword, _, peeked, read⟩ := bind_ok.mp read
  obtain ⟨rfl, rfl⟩ := peek_ok.mp peeked
  generalize seen : before.peek.kind = kind at read
  split at read
  case h_1 =>
      exact (sound_forLoop sound).behind seen (by simp) (fun rule => rule _ seen) read
  case h_2 =>
      exact (sound_conditional sound).behind seen (by simp) (fun rule => rule _ seen) read
  case h_3 =>
      exact (sound_whileLoop sound).behind seen (by simp) (fun rule => rule _ seen) read
  case h_4 => exact (sound_returnStatement seen).behind seen (by simp) id read
  case h_5 =>
      obtain ⟨_, middle, skipped, read⟩ := bind_ok.mp read
      obtain ⟨body, last, readBody, read⟩ := bind_ok.mp read
      obtain ⟨rfl, rfl⟩ := pure_ok.mp read
      refine ((leads_skip skipped seen (by simp)).trans (sound_block sound readBody)).imp ?_
      rintro ⟨⟨shape, next⟩, derivation, fresh⟩
      rw [shape, ← next, Stmt.numbers]
      exact ⟨⟨.block (derivation _ seen), by simp⟩, fresh⟩
  case h_6 => exact sound_printStatement.behind seen (by simp) (fun rule => rule _ seen) read
  case h_7 =>
      refine (sound_expressionStatement bound read).imp ?_
      rintro ⟨⟨value, stop⟩, fresh⟩
      exact ⟨⟨.expression (.intro value stop), by simp⟩, fresh⟩

theorem sound_declaration :
    Sound (declaration nested bound) (Greedy (Declaration inner)) Stmt.numbers := by
  intro before statement after read
  obtain ⟨keyword, _, peeked, read⟩ := bind_ok.mp read
  obtain ⟨rfl, rfl⟩ := peek_ok.mp peeked
  generalize seen : before.peek.kind = kind at read
  split at read
  case h_1 =>
      exact (sound_classDeclaration sound).behind seen (by simp) (fun rule => rule _ seen) read
  case h_2 =>
      obtain ⟨_, middle, skipped, read⟩ := bind_ok.mp read
      obtain ⟨declaration, last, readDeclaration, read⟩ := bind_ok.mp read
      obtain ⟨rfl, rfl⟩ := pure_ok.mp read
      refine ((leads_skip skipped seen (by simp)).trans
        (sound_function sound .function readDeclaration)).imp ?_
      rintro ⟨⟨shape, next⟩, derivation, fresh⟩
      rw [shape, ← next, Stmt.numbers]
      exact ⟨⟨.function seen derivation, by simp⟩, fresh⟩
  case h_3 =>
      refine (sound_variableDeclaration bound).behind seen (by simp) ?_ read
      intro rest statement after rule
      refine ⟨.var (rule _ seen), ?_⟩
      cases rule _ seen <;> simp
  case h_4 =>
      refine (sound_plainStatement sound read).imp ?_
      rintro ⟨⟨derivation, greedy⟩, fresh⟩
      exact ⟨⟨.plain derivation, greedy⟩, fresh⟩

end Statements

theorem sound_statement (bound : Nat) (position : Position) :
    Sound (statement bound position) (Greedy (Statement position)) Stmt.numbers := by
  induction bound generalizing position with
  | zero =>
      intro before statement after read
      exact absurd read fail_ne_ok
  | succ bound ih =>
      intro before statement after read
      cases position with
      | declaration =>
          refine (sound_declaration ih read).imp ?_
          rintro ⟨⟨derivation, greedy⟩, fresh⟩
          exact ⟨⟨.declaration Statement (fun _ _ _ _ part => part) derivation, greedy⟩, fresh⟩
      | statement =>
          refine (sound_plainStatement ih read).imp ?_
          rintro ⟨⟨derivation, greedy⟩, fresh⟩
          exact ⟨⟨.plain Statement (fun _ _ _ _ part => part) derivation, greedy⟩, fresh⟩

/-! ## Whole programs -/

theorem shortens_statement (position : Position) : (Statement position).Shortens :=
  (spells_statement position).shortens Stmt.leaves_ne_nil

/-- The tokens read are those in front of the first closing token, and the one
behind them is closing. -/
theorem split_eq (tokens : List Token) :
    (Cursor.split tokens).1 = tokens.takeWhile (fun token => token.kind ≠ .stop) ∧
      (Cursor.split tokens).2.kind = .stop := by
  induction tokens with
  | nil => exact ⟨rfl, rfl⟩
  | cons token rest ih =>
      by_cases closing : token.kind = .stop
      · simp [Cursor.split, closing]
      · cases rest with
        | nil => simp [Cursor.split, closing, Token.atEnd]
        | cons second others => simpa [Cursor.split, closing] using ih

/-- Tokens among which there is a closing one are those in front of the first closing
token, that token and what stands behind it. -/
theorem split_shape {tokens : List Token} (closed : ∃ token ∈ tokens, token.kind = .stop) :
    ∃ behind, tokens = (Cursor.split tokens).1 ++ (Cursor.split tokens).2 :: behind := by
  induction tokens with
  | nil => simp at closed
  | cons token rest ih =>
      by_cases closing : token.kind = .stop
      · exact ⟨rest, by simp [Cursor.split, closing]⟩
      · have later : ∃ token ∈ rest, token.kind = .stop := by simpa [closing] using closed
        obtain ⟨behind, shape⟩ := ih later
        cases rest with
        | nil => simp at later
        | cons second others => exact ⟨behind, by simpa [Cursor.split, closing] using shape⟩

theorem split_append {front : List Token} {stop : Token}
    (open_ : ∀ token ∈ front, token.kind ≠ .stop) (closed : stop.kind = .stop) :
    Cursor.split (front ++ [stop]) = (front, stop) := by
  induction front with
  | nil => simp [Cursor.split, closed]
  | cons first rest ih =>
      have here := open_ first (.head _)
      have later := ih fun token inside => open_ token (.tail _ inside)
      cases rest with
      | nil => simp [Cursor.split, closed]
      | cons second others =>
          simp only [List.cons_append] at later ⊢
          simp [Cursor.split, later]

/-- A program that is accepted follows the rules, and its uses of names have
numbers of their own. -/
theorem sound_readProgram {tokens : List Token} {nextReference : Nat} {statements : List Stmt}
    (accepted : (readProgram tokens nextReference).1 = .ok statements) :
    Program (tokens.takeWhile fun token => token.kind ≠ .stop) statements ∧
      Fresh nextReference (readProgram tokens nextReference).2 (Stmt.listNumbers statements) := by
  obtain ⟨front, closed⟩ := split_eq tokens
  rw [← front]
  unfold readProgram at accepted ⊢
  cases read : program (.ofTokens tokens nextReference) with
  | error diagnostic after => simp [read] at accepted
  | ok found after =>
      cases quiet : after.reported with
      | cons diagnostic others => simp [read, quiet] at accepted
      | nil =>
          simp only [read, quiet, Except.ok.injEq] at accepted ⊢
          subst accepted
          obtain ⟨start, _, got, read⟩ := bind_ok.mp read
          obtain ⟨rfl, rfl⟩ := get_ok.mp got
          have look (cursor : Cursor) :
              (pure false : Reading Bool) cursor = .ok false cursor := rfl
          have leads := sound_declarationsUntil (fun _ => false) look
            (sound_statement _ .declaration).of_greedy read
          obtain ⟨_, _, holds⟩ := leads quiet
          obtain ⟨⟨derivation, exhausted⟩, fresh⟩ := holds closed
          rcases exhausted (shortens_statement .declaration) (Nat.le_refl _) with ended | impossible
          · rw [ended] at derivation
            exact ⟨derivation, fresh⟩
          · cases impossible

end Lox.Grammar
