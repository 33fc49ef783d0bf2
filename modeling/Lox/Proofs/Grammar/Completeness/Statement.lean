import Lox.Proofs.Grammar.Completeness.Expression
import Lox.Proofs.Grammar.Soundness.Statement

/-!
# Statements that the rules allow are read

A statement ends with a token of its own, so what comes behind matters in one
case only: an `if` that is still open takes an `else` that follows it. A rule
that leaves such an `else` to an outer `if` is not among the rules.
-/

namespace Lox.Grammar

open Reading

/-! ## How statements start and end -/

/-- The kinds of tokens that start a statement other than a declaration. -/
def startsPlain : Token.Kind → Bool
  | .keyword .for | .keyword .if | .keyword .while | .keyword .return | .keyword .print
  | .mark .leftBrace => true
  | kind => startsExpression kind

/-- The kinds of tokens that start a declaration or a statement. -/
def startsDeclaration : Token.Kind → Bool
  | .keyword .class | .keyword .fun | .keyword .var => true
  | kind => startsPlain kind

theorem startsPlain_of_expression {kind : Token.Kind} (starting : startsExpression kind = true) :
    startsPlain kind = true := by
  unfold startsPlain
  split <;> simp_all

theorem startsDeclaration_of_plain {kind : Token.Kind} (starting : startsPlain kind = true) :
    startsDeclaration kind = true := by
  unfold startsDeclaration
  split <;> simp_all

theorem startsExpression_of_ends {kind : Token.Kind} (ends : endsExpression kind = true) :
    startsExpression kind = false := by
  simp only [endsExpression, Bool.or_eq_true, decide_eq_true_eq] at ends
  rcases ends with (rfl | rfl) | rfl <;> rfl

/-- The tokens behind a statement do not go on with it. -/
def Closed (statement : Stmt) (after : List Token) : Prop :=
  endsOpen statement = true → front (.keyword .else) after = false

theorem starts_plain {inner : Position → Rule Stmt} : (Plain inner).Starts startsPlain := by
  intro before statement after derivation
  cases derivation with
  | expression statement =>
      obtain ⟨value, _⟩ := statement
      obtain ⟨token, rest, shape, starting⟩ := starts_expression value
      exact ⟨token, rest, shape, startsPlain_of_expression starting⟩
  | print keyword => exact ⟨_, _, rfl, by simp [keyword, startsPlain]⟩
  | returning keyword => exact ⟨_, _, rfl, by simp [keyword, startsPlain]⟩
  | block body =>
      obtain ⟨opening, _, _⟩ := body
      exact ⟨_, _, rfl, by simp [opening, startsPlain]⟩
  | whileLoop keyword => exact ⟨_, _, rfl, by simp [keyword, startsPlain]⟩
  | forLoop keyword => exact ⟨_, _, rfl, by simp [keyword, startsPlain]⟩
  | conditional keyword => exact ⟨_, _, rfl, by simp [keyword, startsPlain]⟩
  | alternative keyword => exact ⟨_, _, rfl, by simp [keyword, startsPlain]⟩

theorem starts_declaration {inner : Position → Rule Stmt} :
    (Declaration inner).Starts startsDeclaration := by
  intro before statement after derivation
  cases derivation with
  | classDecl keyword => exact ⟨_, _, rfl, by simp [keyword, startsDeclaration]⟩
  | function keyword => exact ⟨_, _, rfl, by simp [keyword, startsDeclaration]⟩
  | var declaration =>
      cases declaration with
      | bare keyword => exact ⟨_, _, rfl, by simp [keyword, startsDeclaration]⟩
      | initialized keyword => exact ⟨_, _, rfl, by simp [keyword, startsDeclaration]⟩
  | plain statement =>
      obtain ⟨token, rest, shape, starting⟩ := starts_plain statement
      exact ⟨token, rest, shape, startsDeclaration_of_plain starting⟩

theorem starts_statement (position : Position) :
    (Statement position).Starts startsDeclaration := by
  intro before statement after derivation
  cases derivation with
  | declaration inner _ derivation => exact starts_declaration derivation
  | plain inner _ derivation =>
      obtain ⟨token, rest, shape, starting⟩ := starts_plain derivation
      exact ⟨token, rest, shape, startsDeclaration_of_plain starting⟩

/-! ## Parts of statements -/

section Parts

variable {length bound : Nat}

theorem complete_name (fault : SyntaxFault) (follow : List Token → Prop) :
    Complete (expect .identifier fault) Name id length fun _ => follow := by
  intro before name after derivation _ _
  generalize shape : before.rest = tokens at derivation
  obtain ⟨kind⟩ := derivation
  exact ⟨name, { before with rest := after }, expect_of_front shape kind, rfl, rfl, rfl⟩

/-- An expression is not taken for absent, because it never starts with a token
that ends one. -/
theorem complete_expressionUnless (kind : Token.Kind) (ends : endsExpression kind = true) :
    Complete (expressionUnless kind bound) (Optional Expression) (Option.map Expr.unnumbered) bound
      fun _ after => ∃ stop rest, after = stop :: rest ∧ stop.kind = kind := by
  rintro before value after derivation within ⟨stop, rest, rfl, stopKind⟩
  generalize shape : before.rest = tokens at derivation
  cases derivation with
  | none =>
      refine ⟨none, before, ?_, shape, rfl, rfl⟩
      rw [expressionUnless, bind_of_ok sees_eq, shape, front_cons, stopKind]
      simp only [decide_true, if_true]
      rfl
  | some derivation =>
      obtain ⟨token, others, rfl, starting⟩ := starts_expression derivation
      rw [← shape] at derivation
      have present : front kind before.rest = false := by
        rw [shape, front_cons, decide_eq_false_iff_not]
        rintro rfl
        simp [startsExpression_of_ends ends] at starting
      obtain ⟨read, last, ran, remaining, reported, same⟩ :=
        complete_expression bound before derivation within
          ⟨stop, rest, rfl, by rw [stopKind]; exact ends⟩
      refine ⟨some read, last, ?_, remaining, reported, by simp [same]⟩
      rw [expressionUnless, bind_of_ok sees_eq, present]
      simp only [Bool.false_eq_true, if_false]
      exact bind_of_ok ran

theorem front_variableDeclaration {before after : List Token} {statement : Stmt}
    (derivation : VariableDeclaration before statement after) :
    ∃ keyword rest, before = keyword :: rest ∧ keyword.kind = .keyword .var := by
  cases derivation with
  | bare kind => exact ⟨_, _, rfl, kind⟩
  | initialized kind => exact ⟨_, _, rfl, kind⟩

/-- What `var` declares is read from its name on. -/
theorem complete_variableDeclaration (before : Cursor) {keyword : Token} {rest after : List Token}
    {statement : Stmt} (derivation : VariableDeclaration (keyword :: rest) statement after)
    (shape : before.rest = rest) (within : rest.length ≤ bound + 1) :
    Reads (variableDeclaration bound) before after fun read =>
      read.unnumbered = statement.unnumbered := by
  cases derivation with
  | @bare _ name stop after _ nameKind stopKind =>
      refine ⟨.var name none, { before with rest := after }, ?_, rfl, rfl, rfl⟩
      have noValue : front (.mark .equal) (stop :: after) = false := by
        rw [front_cons, stopKind]
        rfl
      have given : initialValue bound { before with rest := stop :: after } =
          .ok none { before with rest := stop :: after } :=
        bind_ok.mpr ⟨false, _, accepts_of_unseen noValue, rfl⟩
      rw [variableDeclaration, bind_of_ok (expect_of_front shape nameKind), bind_of_ok given,
        bind_of_ok (expect_of_front rfl stopKind)]
      rfl
  | @initialized _ name equals stop behind _ value _ nameKind equal derivation stopKind =>
      simp only [List.length_cons] at within
      obtain ⟨read, last, ran, remaining, reported, same⟩ :=
        complete_expression bound { before with rest := behind } derivation (by simp only; omega)
          ⟨stop, after, rfl, by rw [stopKind]; rfl⟩
      refine ⟨.var name (some read), { last with rest := after }, ?_, rfl, reported,
        by simp [same]⟩
      have given : initialValue bound { before with rest := equals :: behind } =
          .ok (some read) last :=
        bind_ok.mpr ⟨true, _, accepts_of_front rfl equal, bind_ok.mpr ⟨read, last, ran, rfl⟩⟩
      rw [variableDeclaration, bind_of_ok (expect_of_front shape nameKind), bind_of_ok given,
        bind_of_ok (expect_of_front remaining stopKind)]
      rfl

theorem complete_expressionStatement :
    Complete (expressionStatement bound) ExpressionStatement Stmt.unnumbered bound
      fun _ _ => True := by
  intro before statement after derivation within _
  obtain ⟨derivation, stopKind⟩ := derivation
  rename_i stop value
  obtain ⟨read, last, ran, remaining, reported, same⟩ :=
    complete_expression bound before derivation within ⟨stop, after, rfl, by rw [stopKind]; rfl⟩
  refine ⟨.expression read, { last with rest := after }, ?_, rfl, reported,
    by simp [same]⟩
  rw [expressionStatement, bind_of_ok ran, bind_of_ok (expect_of_front remaining stopKind)]
  rfl

theorem complete_printStatement (before : Cursor) {stop : Token} {after : List Token} {value : Expr}
    (derivation : Expression before.rest value (stop :: after))
    (within : before.rest.length ≤ bound) (stopKind : stop.kind = .mark .semicolon) :
    Reads (printStatement bound) before after fun read =>
      read.unnumbered = (Stmt.print value).unnumbered := by
  obtain ⟨read, last, ran, remaining, reported, same⟩ :=
    complete_expression bound before derivation within ⟨stop, after, rfl, by rw [stopKind]; rfl⟩
  refine ⟨.print read, { last with rest := after }, ?_, rfl, reported,
    by simp [same]⟩
  rw [printStatement, bind_of_ok ran, bind_of_ok (expect_of_front remaining stopKind)]
  rfl

theorem complete_returnStatement (before : Cursor) (keyword : Token) {stop : Token}
    {after : List Token} {value : Option Expr}
    (derivation : Optional Expression before.rest value (stop :: after))
    (within : before.rest.length ≤ bound) (stopKind : stop.kind = .mark .semicolon) :
    Reads (returnStatement keyword bound) before after fun read =>
      read.unnumbered = (Stmt.returning keyword value).unnumbered := by
  obtain ⟨read, last, ran, remaining, reported, same⟩ :=
    complete_expressionUnless (.mark .semicolon) rfl before derivation within
      ⟨stop, after, rfl, stopKind⟩
  refine ⟨.returning keyword read, { last with rest := after }, ?_, rfl, reported,
    by simp [same]⟩
  rw [returnStatement, bind_of_ok ran, bind_of_ok (expect_of_front remaining stopKind)]
  rfl

theorem complete_forInitializer :
    Complete (forInitializer bound) ForInitializer Stmt.optionUnnumbered bound fun _ _ => True := by
  intro before initializer after derivation within _
  generalize shape : before.rest = tokens at derivation
  cases derivation with
  | none kind =>
      refine ⟨none, { before with rest := after }, ?_, rfl, rfl, rfl⟩
      rw [forInitializer, bind_of_ok (accepts_of_front shape kind)]
      rfl
  | var derivation =>
      obtain ⟨keyword, rest, rfl, kind⟩ := front_variableDeclaration derivation
      have notAbsent : front (.mark .semicolon) before.rest = false := by
        rw [shape, front_cons, kind]
        rfl
      rw [shape, List.length_cons] at within
      obtain ⟨read, last, ran, remaining, reported, same⟩ :=
        complete_variableDeclaration { before with rest := rest } derivation rfl
          (show rest.length ≤ bound + 1 by omega)
      refine ⟨some read, last, ?_, remaining, reported, by simp [same]⟩
      rw [forInitializer, bind_of_ok (accepts_of_unseen notAbsent)]
      simp only [Bool.false_eq_true, if_false]
      rw [bind_of_ok (accepts_of_front shape kind)]
      exact bind_of_ok ran
  | expression derivation =>
      obtain ⟨token, rest, rfl, starting⟩ : ∃ token rest, tokens = token :: rest ∧
          startsExpression token.kind = true := by
        obtain ⟨value, _⟩ := derivation
        exact starts_expression value
      have other {kind : Token.Kind} (differs : startsExpression kind = false) :
          front kind before.rest = false := by
        rw [shape, front_cons, decide_eq_false_iff_not]
        rintro rfl
        simp [differs] at starting
      rw [← shape] at derivation
      obtain ⟨read, last, ran, remaining, reported, same⟩ :=
        complete_expressionStatement before derivation within trivial
      refine ⟨some read, last, ?_, remaining, reported, by simp [same]⟩
      rw [forInitializer, bind_of_ok (accepts_of_unseen (other rfl))]
      simp only [Bool.false_eq_true, if_false]
      rw [bind_of_ok (accepts_of_unseen (other rfl))]
      exact bind_of_ok ran

theorem complete_superclass :
    Complete superclass Superclass (Option.map Expr.unnumbered) bound
      fun _ after => ∃ opening rest, after = opening :: rest ∧ opening.kind = .mark .leftBrace := by
  rintro before value after derivation _ ⟨opening, rest, rfl, openingKind⟩
  generalize shape : before.rest = tokens at derivation
  cases derivation with
  | none =>
      refine ⟨none, before, ?_, shape, rfl, rfl⟩
      have notGiven : front (.mark .less) before.rest = false := by
        rw [shape, front_cons, openingKind]
        rfl
      exact bind_ok.mpr ⟨false, before, accepts_of_unseen notGiven, rfl⟩
  | @some less name _ _ lessKind nameKind =>
      refine ⟨some (.variable ⟨name, before.nextReference⟩),
        { before with
          rest := opening :: rest
          nextReference := before.nextReference + 1 }, ?_, rfl, rfl, rfl⟩
      refine bind_ok.mpr ⟨true, _, accepts_of_front shape lessKind, ?_⟩
      exact bind_ok.mpr ⟨name, _, expect_of_front rfl nameKind, rfl⟩

end Parts

/-! ## Declarations one after another -/

section Lists

variable {bound : Nat}

theorem recovering_of_ok {declaration : Reading Stmt} {before after : Cursor} {statement : Stmt}
    (ran : declaration before = .ok statement after) :
    recovering declaration before = .ok (some statement) after := by
  unfold recovering
  rw [ran]

variable {closing : Reading Bool} (closes : List Token → Bool) {declaration : Reading Stmt}
variable {rule : Rule Stmt} {length : Nat}
variable (look : ∀ cursor, closing cursor = .ok (closes cursor.rest) cursor)
variable (complete : Complete declaration rule Stmt.unnumbered length Closed)
variable (shortens : rule.Shortens) (starts : rule.Starts startsDeclaration)
variable (opens : ∀ token rest, startsDeclaration token.kind = true →
  closes (token :: rest) = false)
include look complete shortens starts opens

/-- Valid declarations are read without ever recovering from a fault, and reading goes on
behind them. -/
theorem declarationsUntil_through (before : Cursor) {tokens after : List Token}
    {statements : List Stmt} (derivation : Many rule tokens statements after)
    (shape : before.rest = tokens) (within : tokens.length ≤ length)
    (enough : tokens.length ≤ bound) (noElse : front (.keyword .else) after = false) :
    ∃ read middle left, middle.rest = after ∧ middle.reported = before.reported ∧
      after.length ≤ left ∧ Stmt.listUnnumbered read = Stmt.listUnnumbered statements ∧
      declarationsUntil closing declaration bound before =
        (do return read ++ (← declarationsUntil closing declaration left)) middle := by
  induction derivation generalizing before bound with
  | none =>
      refine ⟨[], before, bound, shape, rfl, enough, rfl, ?_⟩
      simp
  | @more tokens middle after first others derivation rest ih =>
      obtain ⟨token, behind, same, starting⟩ := starts derivation
      have progress := shortens derivation
      obtain ⟨bound, rfl⟩ : ∃ fewer, bound = fewer + 1 := ⟨bound - 1, by omega⟩
      have closed : front (.keyword .else) middle = false := by
        cases rest with
        | none => exact noElse
        | more second =>
            obtain ⟨token, behind, rfl, starting⟩ := starts second
            rw [front_cons, decide_eq_false_iff_not]
            intro kind
            simp [kind, startsDeclaration, startsPlain, startsExpression, isPrefixOperator,
              startsOperand] at starting
      have goesOn : (before.rest.isEmpty || closes before.rest) = false := by
        rw [shape, same, opens token behind starting]
        rfl
      subst shape
      obtain ⟨read, between, ran, remaining, reported, equal⟩ :=
        complete before derivation within fun _ => closed
      obtain ⟨reads, last, left, stopped, quiet, covers, equals, follows⟩ :=
        ih between remaining (by omega) (show middle.length ≤ bound by omega) noElse
      refine ⟨read :: reads, last, left, stopped, quiet.trans reported, covers,
        by simp [equal, equals], ?_⟩
      rw [declarationsUntil, bind_of_ok (isAtEnd_ok.mpr ⟨rfl, rfl⟩), bind_of_ok (look before)]
      simp only [goesOn, Bool.false_eq_true, if_false]
      rw [bind_of_ok (recovering_of_ok ran), bind_of_eq follows]
      simp

/-- Where nothing is left behind them, or something closes them, that is all. -/
theorem complete_declarationsUntil (before : Cursor) {tokens after : List Token}
    {statements : List Stmt} (derivation : Many rule tokens statements after)
    (shape : before.rest = tokens) (within : tokens.length ≤ length)
    (enough : tokens.length ≤ bound) (ended : after = [] ∨ closes after = true)
    (noElse : front (.keyword .else) after = false) :
    Reads (declarationsUntil closing declaration bound) before after fun read =>
      Stmt.listUnnumbered read = Stmt.listUnnumbered statements := by
  obtain ⟨read, middle, left, stopped, quiet, -, equal, goesOn⟩ :=
    declarationsUntil_through closes look complete shortens starts opens before derivation shape
      within enough noElse
  have stops : declarationsUntil closing declaration left middle = .ok [] middle := by
    cases left with
    | zero => rfl
    | succ left =>
        rw [declarationsUntil, bind_of_ok (isAtEnd_ok.mpr ⟨rfl, rfl⟩), bind_of_ok (look middle),
          stopped]
        rcases ended with rfl | ended
        · rfl
        · simp only [ended, Bool.or_true, if_true]
          rfl
  refine ⟨read, middle, ?_, stopped, quiet, equal⟩
  rw [goesOn, bind_of_ok stops, List.append_nil]
  rfl

end Lists

/-! ## Statements -/

section Statements

variable {nested : Position → Reading Stmt} {inner : Position → Rule Stmt} {length bound : Nat}
variable (complete : ∀ position,
  Complete (nested position) (inner position) Stmt.unnumbered length Closed)
variable (spells : ∀ position, (inner position).Spells Stmt.leaves)
variable (starts : ∀ position, (inner position).Starts startsDeclaration)

include complete spells starts

theorem complete_block (before : Cursor) {opening : Token} {rest after : List Token}
    {body : List Stmt} (derivation : Block (inner .declaration) (opening :: rest) body after)
    (shape : before.rest = rest) (within : rest.length ≤ length) (covers : length ≤ bound) :
    Reads (block nested bound) before after fun read =>
      Stmt.listUnnumbered read = Stmt.listUnnumbered body := by
  obtain ⟨_, derivation, kind⟩ := derivation
  rename_i closing
  have look (cursor : Cursor) :
      sees (.mark .rightBrace) cursor = .ok (front (.mark .rightBrace) cursor.rest) cursor :=
    sees_eq
  have opens (token : Token) (rest : List Token) (starting : startsDeclaration token.kind = true) :
      front (.mark .rightBrace) (token :: rest) = false := by
    rw [front_cons, decide_eq_false_iff_not]
    intro brace
    simp [brace, startsDeclaration, startsPlain, startsExpression, isPrefixOperator,
      startsOperand] at starting
  obtain ⟨read, last, ran, remaining, reported, same⟩ :=
    complete_declarationsUntil _ look (complete .declaration)
      ((spells .declaration).shortens Stmt.leaves_ne_nil) (starts .declaration) opens before
      derivation shape within (Nat.le_trans within covers) (.inr (by simp [front_cons, kind]))
      (by simp [front_cons, kind])
  refine ⟨read, { last with rest := after }, ?_, rfl, reported, same⟩
  rw [block, bind_of_ok ran, bind_of_ok (expect_of_front remaining kind)]
  rfl

theorem complete_function (form : FunctionForm) (covers : length ≤ bound) :
    Complete (function nested bound form) (Function (inner .declaration)) FunctionDecl.unnumbered
      length fun _ _ => True := by
  intro before declaration after derivation within _
  generalize shape : before.rest = tokens at derivation
  obtain ⟨nameKind, openingKind, listed, closingKind, derivation⟩ := derivation
  rename_i name opening closing parameters middle names body
  rw [shape] at within
  simp only [List.length_cons] at within
  have shortens : Name.Shortens := by
    rintro _ _ _ ⟨_⟩
    simp
  have startsName : Name.Starts fun kind => kind = .identifier := by
    rintro _ _ _ ⟨kind⟩
    exact ⟨_, _, rfl, by simp [kind]⟩
  obtain ⟨readNames, between, ranNames, remaining, reported, sameNames⟩ :=
    complete_separated .tooManyParameters .parameterName (complete_name .parameterName Delimited)
      shortens startsName rfl covers { before with rest := parameters } listed
      (show parameters.length ≤ length by omega)
      ⟨closing, middle, rfl, closingKind⟩
  simp only [List.map_id] at sameNames
  subst sameNames
  have progress := (spells_names listed).length_eq
  simp only [List.length_cons] at progress
  cases derivation with
  | @intro brace ending inside _ _ braceKind derivation endingKind =>
      simp only [List.length_cons] at progress
      obtain ⟨readBody, last, ranBody, ended, quiet, sameBody⟩ :=
        complete_block complete spells starts { between with rest := inside }
          (.intro braceKind derivation endingKind) rfl (by omega) covers
      refine ⟨⟨name, readNames, readBody⟩, last, ?_, ended, quiet.trans reported,
        by simp [sameBody]⟩
      rw [function, bind_of_ok (expect_of_front shape nameKind),
        bind_of_ok (expect_of_front rfl openingKind), bind_of_ok ranNames,
        bind_of_ok (expect_of_front remaining closingKind),
        bind_of_ok (expect_of_front rfl braceKind), bind_of_ok ranBody]
      rfl

theorem complete_methods {count : Nat} (before : Cursor) {tokens after : List Token}
    {closing : Token} {members : List FunctionDecl}
    (derivation : Many (Function (inner .declaration)) tokens members (closing :: after))
    (shape : before.rest = tokens) (within : tokens.length ≤ length)
    (enough : tokens.length ≤ count)
    (covers : length ≤ bound) (kind : closing.kind = .mark .rightBrace) :
    Reads (methods (function nested bound .method) count) before (closing :: after) fun read =>
      FunctionDecl.listUnnumbered read = FunctionDecl.listUnnumbered members := by
  generalize behind : closing :: after = rest at derivation
  induction derivation generalizing before count with
  | none =>
      subst behind
      simp only [List.length_cons] at enough
      obtain ⟨count, rfl⟩ : ∃ fewer, count = fewer + 1 := ⟨count - 1, by omega⟩
      refine ⟨[], before, ?_, shape, rfl, rfl⟩
      rw [methods, bind_of_ok (isAtEnd_ok.mpr ⟨rfl, rfl⟩), bind_of_ok sees_eq, shape, front_cons,
        kind]
      rfl
  | @more tokens middle _ first others derivation rest ih =>
      have named : front (.mark .rightBrace) tokens = false := by
        obtain ⟨kind⟩ := derivation
        rw [front_cons, kind]
        rfl
      have progress := (spells_function spells).shortens FunctionDecl.leaves_ne_nil derivation
      obtain ⟨count, rfl⟩ : ∃ fewer, count = fewer + 1 := ⟨count - 1, by omega⟩
      subst shape
      have present : (before.rest.isEmpty || front (.mark .rightBrace) before.rest) = false := by
        rw [named, List.isEmpty_eq_false_iff.mpr (List.length_pos_iff.mp (by omega))]
        rfl
      obtain ⟨read, between, ran, remaining, reported, equal⟩ :=
        complete_function complete spells starts .method covers before derivation within trivial
      obtain ⟨reads, last, follows, stopped, quiet, equals⟩ :=
        ih between remaining (by omega) (show middle.length ≤ count by omega) behind
      refine ⟨read :: reads, last, ?_, stopped, quiet.trans reported,
        by simp [equal, equals]⟩
      rw [methods, bind_of_ok (isAtEnd_ok.mpr ⟨rfl, rfl⟩), bind_of_ok sees_eq]
      simp only [present, Bool.false_eq_true, if_false]
      rw [bind_of_ok ran, bind_of_ok follows]
      rfl

theorem complete_classDeclaration {before : Cursor} {name : Token}
    {rest behind after : List Token} {opening closing : Token} {parent : Option Expr}
    {members : List FunctionDecl} (shape : before.rest = name :: rest)
    (within : rest.length ≤ length) (covers : length ≤ bound) (nameKind : name.kind = .identifier)
    (derivationParent : Superclass rest parent (opening :: behind))
    (openingKind : opening.kind = .mark .leftBrace)
    (derivation : Many (Function (inner .declaration)) behind members (closing :: after))
    (closingKind : closing.kind = .mark .rightBrace) :
    Reads (classDeclaration nested bound) before after fun read =>
      read.unnumbered = (Stmt.classDecl name parent members).unnumbered := by
  obtain ⟨readParent, middle, ranParent, remaining, reported, sameParent⟩ :=
    complete_superclass { before with rest := rest } derivationParent within
      ⟨opening, behind, rfl, openingKind⟩
  have progress := (spells_superclass derivationParent).length_eq
  simp only [List.length_cons] at progress
  obtain ⟨readMembers, last, ranMembers, ended, quiet, sameMembers⟩ :=
    complete_methods complete spells starts { middle with rest := behind } derivation rfl
      (by omega) (show behind.length ≤ bound by omega) covers closingKind
  refine ⟨.classDecl name readParent readMembers, { last with rest := after }, ?_, rfl,
    quiet.trans reported, by simp [sameParent, sameMembers]⟩
  rw [classDeclaration, bind_of_ok (expect_of_front shape nameKind), bind_of_ok ranParent,
    bind_of_ok (expect_of_front remaining openingKind), bind_of_ok ranMembers,
    bind_of_ok (expect_of_front ended closingKind)]
  rfl

end Statements

/-! ### Dispatch on the first token -/

section Dispatch

variable {nested : Position → Reading Stmt} {bound : Nat} {before : Cursor} {token : Token}
variable {rest : List Token}

/-- What is read behind the first token of a statement. -/
theorem Reads.behind {whole reading : Reading Stmt} {after : List Token} {expected : Stmt → Prop}
    (shape : before.rest = token :: rest)
    (same : whole before = (skip >>= fun _ => reading) before)
    (reads : Reads reading { before with rest := rest } after expected) :
    Reads whole before after expected := by
  obtain ⟨read, last, ran, holds⟩ := reads
  refine ⟨read, last, ?_, holds⟩
  rw [same, bind_of_ok (skip_of_front shape), ran]

theorem plainStatement_of_expression (shape : before.rest = token :: rest)
    (starting : startsExpression token.kind = true) :
    plainStatement nested bound before = expressionStatement bound before := by
  rw [plainStatement, bind_of_ok (peek_of_front shape)]
  generalize token.kind = kind at starting
  split <;> first | rfl | simp [startsExpression, startsOperand, isPrefixOperator] at starting

theorem declaration_of_plain (shape : before.rest = token :: rest)
    (starting : startsPlain token.kind = true) :
    declaration nested bound before = plainStatement nested bound before := by
  rw [declaration, bind_of_ok (peek_of_front shape)]
  generalize token.kind = kind at starting
  split <;>
    first
    | rfl
    | simp [startsPlain, startsExpression, startsOperand, isPrefixOperator] at starting

end Dispatch

section Statements

variable {nested : Position → Reading Stmt} {inner : Position → Rule Stmt} {length : Nat}
variable (complete : ∀ position,
  Complete (nested position) (inner position) Stmt.unnumbered length Closed)
variable (spells : ∀ position, (inner position).Spells Stmt.leaves)
variable (starts : ∀ position, (inner position).Starts startsDeclaration)

include complete in
/-- The alternative belongs to this condition, whether it is there or not. -/
theorem complete_alternative {before : Cursor} {keyword : Token} {rest after : List Token}
    {statement : Stmt} (shape : before.rest = keyword :: rest)
    (kind : keyword.kind = .keyword .else) (derivation : inner .statement rest statement after)
    (within : rest.length ≤ length) (closed : Closed statement after) :
    Reads (alternative nested) before after fun read =>
      Stmt.optionUnnumbered read = some statement.unnumbered := by
  obtain ⟨read, last, ran, remaining, reported, same⟩ :=
    complete .statement { before with rest := rest } derivation within closed
  refine ⟨some read, last, ?_, remaining, reported, by simp [same]⟩
  exact bind_ok.mpr ⟨true, _, accepts_of_front shape kind, bind_ok.mpr ⟨read, last, ran, rfl⟩⟩

include complete spells in
theorem complete_conditional (before : Cursor) {opening closing : Token}
    {rest behind stop : List Token} {condition : Expr} {consequent : Stmt}
    (shape : before.rest = opening :: rest) (within : rest.length ≤ length)
    (openingKind : opening.kind = .mark .leftParen)
    (derivationCondition : Expression rest condition (closing :: behind))
    (closingKind : closing.kind = .mark .rightParen)
    (derivation : inner .statement behind consequent stop)
    (closed : Closed consequent stop) {other : Option Stmt} {after : List Token}
    (derivationOther : ∀ cursor : Cursor, cursor.rest = stop → stop.length ≤ length →
      Reads (alternative nested) cursor after fun read =>
        Stmt.optionUnnumbered read = Stmt.optionUnnumbered other) :
    Reads (conditional nested (length + 1)) before after fun read =>
      read.unnumbered = (Stmt.conditional condition consequent other).unnumbered := by
  obtain ⟨readCondition, middle, ranCondition, remaining, reported, sameCondition⟩ :=
    complete_expression (length + 1) { before with rest := rest } derivationCondition
      (Nat.le_succ_of_le within) ⟨closing, behind, rfl, by rw [closingKind]; rfl⟩
  have progress := (spells_expression derivationCondition).length_eq
  simp only [List.length_cons] at progress
  obtain ⟨readConsequent, last, ran, ended, quiet, same⟩ :=
    complete .statement { middle with rest := behind } derivation (by simp only; omega) closed
  have progressConsequent := (spells .statement derivation).length_eq
  obtain ⟨readOther, final, ranOther, stopped, silent, sameOther⟩ :=
    derivationOther last ended (by omega)
  refine ⟨.conditional readCondition readConsequent readOther, final, ?_, stopped,
    silent.trans (quiet.trans reported),
    by simp [sameCondition, same, sameOther]⟩
  rw [conditional, bind_of_ok (expect_of_front shape openingKind), bind_of_ok ranCondition,
    bind_of_ok (expect_of_front remaining closingKind), bind_of_ok ran, bind_of_ok ranOther]
  rfl

include complete in
theorem complete_whileLoop (before : Cursor) {opening closing : Token}
    {rest behind after : List Token} {condition : Expr} {body : Stmt}
    (shape : before.rest = opening :: rest) (within : rest.length ≤ length)
    (openingKind : opening.kind = .mark .leftParen)
    (derivationCondition : Expression rest condition (closing :: behind))
    (closingKind : closing.kind = .mark .rightParen)
    (derivation : inner .statement behind body after) (closed : Closed body after) :
    Reads (whileLoop nested (length + 1)) before after fun read =>
      read.unnumbered = (Stmt.whileLoop condition body).unnumbered := by
  obtain ⟨readCondition, middle, ranCondition, remaining, reported, sameCondition⟩ :=
    complete_expression (length + 1) { before with rest := rest } derivationCondition
      (Nat.le_succ_of_le within) ⟨closing, behind, rfl, by rw [closingKind]; rfl⟩
  have progress := (spells_expression derivationCondition).length_eq
  simp only [List.length_cons] at progress
  obtain ⟨readBody, last, ran, ended, quiet, same⟩ :=
    complete .statement { middle with rest := behind } derivation (by simp only; omega) closed
  refine ⟨.whileLoop readCondition readBody, last, ?_, ended, quiet.trans reported,
    by simp [sameCondition, same]⟩
  rw [whileLoop, bind_of_ok (expect_of_front shape openingKind), bind_of_ok ranCondition,
    bind_of_ok (expect_of_front remaining closingKind), bind_of_ok ran]
  rfl

include complete in
theorem complete_forLoop (before : Cursor) {opening stop closing : Token}
    {rest conditions increments behind after : List Token} {initializer : Option Stmt}
    {condition increment : Option Expr} {body : Stmt} (shape : before.rest = opening :: rest)
    (within : rest.length ≤ length) (openingKind : opening.kind = .mark .leftParen)
    (derivationInitializer : ForInitializer rest initializer conditions)
    (derivationCondition : Optional Expression conditions condition (stop :: increments))
    (stopKind : stop.kind = .mark .semicolon)
    (derivationIncrement : Optional Expression increments increment (closing :: behind))
    (closingKind : closing.kind = .mark .rightParen)
    (derivation : inner .statement behind body after) (closed : Closed body after) :
    Reads (forLoop nested (length + 1)) before after fun read =>
      read.unnumbered = (Stmt.forLoop initializer condition increment body).unnumbered := by
  have progress := (spells_forInitializer derivationInitializer).length_eq
  have progressCondition := (spells_optional derivationCondition).length_eq
  have progressIncrement := (spells_optional derivationIncrement).length_eq
  simp only [List.length_cons] at progressCondition progressIncrement
  obtain ⟨readInitializer, first, ranInitializer, remaining, reported, sameInitializer⟩ :=
    complete_forInitializer { before with rest := rest } derivationInitializer
      (Nat.le_succ_of_le within) trivial
  subst remaining
  obtain ⟨readCondition, second, ranCondition, atStop, reportedCondition, sameCondition⟩ :=
    complete_expressionUnless (.mark .semicolon) rfl first derivationCondition
      (show first.rest.length ≤ length + 1 by omega) ⟨stop, increments, rfl, stopKind⟩
  obtain ⟨readIncrement, third, ranIncrement, atClosing, reportedIncrement, sameIncrement⟩ :=
    complete_expressionUnless (.mark .rightParen) rfl { second with rest := increments }
      derivationIncrement (show increments.length ≤ length + 1 by omega)
      ⟨closing, behind, rfl, closingKind⟩
  obtain ⟨readBody, last, ran, ended, quiet, same⟩ :=
    complete .statement { third with rest := behind } derivation (by simp only; omega) closed
  refine ⟨.forLoop readInitializer readCondition readIncrement readBody, last, ?_, ended,
    quiet.trans (reportedIncrement.trans (reportedCondition.trans reported)),
    by simp [sameInitializer, sameCondition, sameIncrement, same]⟩
  rw [forLoop, bind_of_ok (expect_of_front shape openingKind), bind_of_ok ranInitializer,
    bind_of_ok ranCondition, bind_of_ok (expect_of_front atStop stopKind),
    bind_of_ok ranIncrement, bind_of_ok (expect_of_front atClosing closingKind), bind_of_ok ran]
  rfl

include complete spells starts in
theorem complete_plainStatement :
    Complete (plainStatement nested (length + 1)) (Plain inner) Stmt.unnumbered (length + 1)
      Closed := by
  intro before statement after derivation within closed
  generalize shape : before.rest = tokens at derivation
  cases derivation with
  | expression derivation =>
      obtain ⟨token, rest, same, starting⟩ : ∃ token rest, tokens = token :: rest ∧
          startsExpression token.kind = true := by
        obtain ⟨value, _⟩ := derivation
        exact starts_expression value
      rw [← shape] at derivation
      rw [Reads, plainStatement_of_expression (shape.trans same) starting]
      exact complete_expressionStatement before derivation within trivial
  | print kind derivation stopKind =>
      rw [shape, List.length_cons] at within
      refine .behind shape ?_
        (complete_printStatement _ derivation (Nat.le_of_succ_le within) stopKind)
      rw [plainStatement, bind_of_ok (peek_of_front shape), kind]
  | returning kind derivation stopKind =>
      rw [shape, List.length_cons] at within
      refine .behind shape ?_
        (complete_returnStatement _ _ derivation (Nat.le_of_succ_le within) stopKind)
      rw [plainStatement, bind_of_ok (peek_of_front shape), kind]
  | @block _ _ body derivation =>
      obtain ⟨opening, rest, rfl, kind⟩ : ∃ opening rest, tokens = opening :: rest ∧
          opening.kind = .mark .leftBrace := by
        obtain ⟨kind⟩ := derivation
        exact ⟨_, _, rfl, kind⟩
      rw [shape, List.length_cons] at within
      obtain ⟨read, last, ran, remaining, reported, same⟩ :=
        complete_block complete spells starts { before with rest := rest } derivation rfl
          (by omega) (Nat.le_succ length)
      refine ⟨.block read, last, ?_, remaining, reported, by simp [same]⟩
      rw [plainStatement, bind_of_ok (peek_of_front shape), kind]
      refine (bind_of_ok (skip_of_front shape)).trans ?_
      exact bind_of_ok ran
  | whileLoop kind openingKind derivationCondition closingKind derivation =>
      rw [shape] at within
      simp only [List.length_cons] at within
      refine .behind shape ?_ (complete_whileLoop complete _ rfl (by omega) openingKind
        derivationCondition closingKind derivation closed)
      rw [plainStatement, bind_of_ok (peek_of_front shape), kind]
  | forLoop kind openingKind derivationInitializer derivationCondition stopKind
      derivationIncrement closingKind derivation =>
      rw [shape] at within
      simp only [List.length_cons] at within
      refine .behind shape ?_ (complete_forLoop complete _ rfl (by omega) openingKind
        derivationInitializer derivationCondition stopKind derivationIncrement closingKind
        derivation closed)
      rw [plainStatement, bind_of_ok (peek_of_front shape), kind]
  | conditional kind openingKind derivationCondition closingKind derivation =>
      rw [shape] at within
      simp only [List.length_cons] at within
      have absent (cursor : Cursor) (stopped : cursor.rest = after) (_ : after.length ≤ length) :
          Reads (alternative nested) cursor after fun read =>
            Stmt.optionUnnumbered read = Stmt.optionUnnumbered none := by
        have noElse : front (.keyword .else) cursor.rest = false := stopped ▸ closed rfl
        exact ⟨none, cursor, bind_ok.mpr ⟨false, cursor, accepts_of_unseen noElse, rfl⟩, stopped,
          rfl, rfl⟩
      refine .behind shape ?_ (complete_conditional complete spells _ rfl (by omega) openingKind
        derivationCondition closingKind derivation (fun _ => closed rfl) absent)
      rw [plainStatement, bind_of_ok (peek_of_front shape), kind]
  | @alternative _ _ _ otherwise _ _ behind _ _ consequent other kind openingKind
      derivationCondition closingKind derivation shut otherwiseKind derivationOther =>
      rw [shape] at within
      simp only [List.length_cons] at within
      have taken (cursor : Cursor) (stopped : cursor.rest = otherwise :: behind)
          (fits : (otherwise :: behind).length ≤ length) :
          Reads (alternative nested) cursor after fun read =>
            Stmt.optionUnnumbered read = Stmt.optionUnnumbered (some other) :=
        complete_alternative complete stopped otherwiseKind derivationOther
          (Nat.le_of_succ_le fits) closed
      -- An `else` belongs to the nearest condition, so the statement in front of it has none left.
      have nearest : Closed consequent (otherwise :: behind) := by
        intro ending
        simp [shut] at ending
      refine .behind shape ?_ (complete_conditional complete spells _ rfl (by omega) openingKind
        derivationCondition closingKind derivation nearest taken)
      rw [plainStatement, bind_of_ok (peek_of_front shape), kind]

include complete spells starts in
theorem complete_declaration :
    Complete (declaration nested (length + 1)) (Declaration inner) Stmt.unnumbered (length + 1)
      Closed := by
  intro before statement after derivation within closed
  generalize shape : before.rest = tokens at derivation
  cases derivation with
  | @classDecl keyword name opening closing rest behind _ parent members kind nameKind
      derivationParent openingKind derivation closingKind =>
      rw [shape] at within
      simp only [List.length_cons] at within
      have started : Cursor.rest { before with rest := name :: rest } = name :: rest := rfl
      refine .behind shape ?_ (complete_classDeclaration complete spells starts started (by omega)
        (Nat.le_succ length) nameKind derivationParent openingKind derivation closingKind)
      rw [declaration, bind_of_ok (peek_of_front shape), kind]
  | @function keyword rest _ declaration kind derivation =>
      rw [shape, List.length_cons] at within
      obtain ⟨read, last, ran, remaining, reported, same⟩ :=
        complete_function complete spells starts .function (Nat.le_succ length)
          { before with rest := rest } derivation (by simp only; omega) trivial
      refine ⟨.function read, last, ?_, remaining, reported, by simp [same]⟩
      rw [Grammar.declaration, bind_of_ok (peek_of_front shape), kind]
      refine (bind_of_ok (skip_of_front shape)).trans ?_
      exact bind_of_ok ran
  | var derivation =>
      obtain ⟨keyword, rest, rfl, kind⟩ := front_variableDeclaration derivation
      rw [shape, List.length_cons] at within
      refine .behind shape ?_ (complete_variableDeclaration { before with rest := rest } derivation
        rfl (show rest.length ≤ length + 2 by omega))
      rw [declaration, bind_of_ok (peek_of_front shape), kind]
  | plain derivation =>
      obtain ⟨token, rest, same, starting⟩ := starts_plain derivation
      rw [← shape] at derivation
      rw [Reads, declaration_of_plain (shape.trans same) starting]
      exact complete_plainStatement complete spells starts before derivation within closed

end Statements

/-- Every statement that the rules allow is read, whatever the bound, as long as
it covers the tokens. -/
theorem complete_statement (bound : Nat) (position : Position) :
    Complete (statement bound position) (Statement position) Stmt.unnumbered bound Closed := by
  intro before statement after derivation within closed
  generalize shape : before.rest = tokens at derivation
  induction derivation generalizing before bound with
  | declaration inner sub derivation ih =>
      have spells (position : Position) : (inner position).Spells Stmt.leaves :=
        fun _ _ _ part => spells_statement position (sub part)
      have starts (position : Position) : (inner position).Starts startsDeclaration :=
        fun _ _ _ part => starts_statement position (sub part)
      have progress := (spells_declaration spells).shortens Stmt.leaves_ne_nil derivation
      rw [← shape] at derivation progress
      obtain ⟨bound, rfl⟩ : ∃ fewer, bound = fewer + 1 := ⟨bound - 1, by omega⟩
      have complete (position : Position) :
          Complete (Grammar.statement bound position) (inner position) Stmt.unnumbered bound
            Closed :=
        fun before _ _ part within closed => ih part bound before within closed rfl
      exact complete_declaration complete spells starts before derivation within closed
  | plain inner sub derivation ih =>
      have spells (position : Position) : (inner position).Spells Stmt.leaves :=
        fun _ _ _ part => spells_statement position (sub part)
      have starts (position : Position) : (inner position).Starts startsDeclaration :=
        fun _ _ _ part => starts_statement position (sub part)
      have progress := (spells_plain spells).shortens Stmt.leaves_ne_nil derivation
      rw [← shape] at derivation progress
      obtain ⟨bound, rfl⟩ : ∃ fewer, bound = fewer + 1 := ⟨bound - 1, by omega⟩
      have complete (position : Position) :
          Complete (Grammar.statement bound position) (inner position) Stmt.unnumbered bound
            Closed :=
        fun before _ _ part within closed => ih part bound before within closed rfl
      exact complete_plainStatement complete spells starts before derivation within closed

/-! ## Whole programs -/

/-- Every program that the rules allow is accepted, and what is read is that
program up to the numbers of the uses of names. -/
theorem complete_readProgram {tokens : List Token} (nextReference : Nat) {statements : List Stmt}
    (derivation : Program (tokens.takeWhile fun token => token.kind ≠ .stop) statements) :
    ∃ read, (readProgram tokens nextReference).1 = .ok read ∧
      Stmt.listUnnumbered read = Stmt.listUnnumbered statements := by
  rw [← (split_eq tokens).1] at derivation
  have look (cursor : Cursor) : (pure false : Reading Bool) cursor = .ok false cursor := rfl
  obtain ⟨read, last, ran, _, reported, same⟩ :=
    complete_declarationsUntil (fun _ => false) look
      (complete_statement (Cursor.split tokens).1.length .declaration)
      (shortens_statement .declaration) (starts_statement .declaration) (fun _ _ _ => rfl)
      (.ofTokens tokens nextReference) derivation rfl (Nat.le_refl _) (Nat.le_refl _)
      (.inl rfl) rfl
  have whole : program (.ofTokens tokens nextReference) = .ok read last :=
    bind_ok.mpr ⟨_, _, get_ok.mpr ⟨rfl, rfl⟩, ran⟩
  have quiet : last.reported = [] := reported
  refine ⟨read, ?_, same⟩
  simp only [readProgram, whole, quiet]

end Lox.Grammar
