import Lox.Proofs.Grammar.Reading

/-!
# What every production keeps to

A contract says how a reading may end, seen from the cursor in front of it. One that
the single steps keep is kept by every production, and so one walk through the grammar
serves for all of them.

A walk takes three contracts. Expressions keep the first. A statement keeps the last as
a whole and the one in the middle behind its first token, because what is left to
read is then less than what there was in front of it.
-/

namespace Lox

/-- How a reading may succeed and how it may fail, seen from the cursor in front of
it. -/
structure Contract where
  passes : Cursor → Cursor → Prop
  fails : Cursor → Diagnostic → Cursor → Prop

namespace Contract

/-- A contract that holds along a relation between cursors, whatever the fault. -/
def along (related : Cursor → Cursor → Prop) : Contract :=
  ⟨related, fun before _ after => related before after⟩

/-- Whatever one contract allows, another one allows too. -/
structure Within (one other : Contract) : Prop where
  passes : ∀ {before after}, one.passes before after → other.passes before after
  fails : ∀ {before fault after}, one.fails before fault after → other.fails before fault after

/-- A contract that the single steps keep and that goes through sequences of them. -/
class Lawful (contract : Contract) : Prop where
  refl : ∀ cursor, contract.passes cursor cursor
  trans : ∀ {before middle after}, contract.passes before middle →
    contract.passes middle after → contract.passes before after
  behind : ∀ {before middle fault after}, contract.passes before middle →
    contract.fails middle fault after → contract.fails before fault after
  move : ∀ cursor {rest}, rest <:+ cursor.rest →
    contract.passes cursor { cursor with rest := rest }
  number : ∀ cursor,
    contract.passes cursor { cursor with nextReference := cursor.nextReference + 1 }
  blame : ∀ cursor fault, contract.fails cursor (.syntactic cursor.peek fault) cursor

/-- A contract that expressions keep. The only fault that is not found at the next token
is that of a target, which is found when the value has been read as well. -/
class Assigns (contract : Contract) : Prop extends Lawful contract where
  target : ∀ {before after equals rest}, before.rest = equals :: rest →
    contract.passes { before with rest := rest } after →
    contract.fails before (.syntactic equals .assignmentTarget) after

/-- A reading that starts at a cursor ends as a contract allows. -/
def Allows {α : Type} (contract : Contract) (before : Cursor) :
    EStateM.Result Diagnostic Cursor α → Prop
  | .ok _ after => contract.passes before after
  | .error fault after => contract.fails before fault after

/-- The contracts of expressions, of the parts of statements behind a token, and of
whole statements. -/
structure Recovers (inner part whole : Contract) : Prop where
  inner_part : inner.Within part
  inner_whole : inner.Within whole
  whole_part : whole.Within part
  passes_behind : ∀ {before after},
    part.passes { before with rest := before.rest.tail } after → whole.passes before after
  fails_behind : ∀ {before fault after},
    part.fails { before with rest := before.rest.tail } fault after →
    whole.fails before fault after
  recover : ∀ {before fault after}, before.rest ≠ [] → whole.fails before fault after →
    part.passes before { after with
      rest := Grammar.synchronized after.rest
      reported := after.reported ++ [fault] }

end Contract

/-- A reading keeps to a contract wherever it starts. -/
def Reading.Keeps {α : Type} (contract : Contract) (step : Reading α) : Prop :=
  ∀ before, contract.Allows before (step before)

namespace Reading

open Contract

variable {α β : Type} {contract other : Contract}

theorem Keeps.within {step : Reading α} (keeps : step.Keeps contract)
    (within : contract.Within other) : step.Keeps other := by
  intro before
  have kept := keeps before
  generalize step before = result at kept ⊢
  cases result with
  | ok value after => exact within.passes kept
  | error fault after => exact within.fails kept

/-- A reading that is chosen by a condition. -/
theorem Keeps.ite {condition : Prop} [Decidable condition] {yes no : Reading α}
    (first : yes.Keeps contract) (second : no.Keeps contract) :
    (if condition then yes else no).Keeps contract := by
  split
  · exact first
  · exact second

variable [Lawful contract]

/-- What is allowed behind a cursor is allowed in front of it. -/
theorem allows_behind {before middle : Cursor} {result : EStateM.Result Diagnostic Cursor α}
    (front : contract.passes before middle) (back : contract.Allows middle result) :
    contract.Allows before result := by
  cases result with
  | ok value after => exact Lawful.trans front back
  | error fault after => exact Lawful.behind front back

theorem keeps_pure (value : α) : Keeps contract (pure value : Reading α) :=
  fun before => Lawful.refl before

theorem Keeps.bind {step : Reading α} {next : α → Reading β} (front : step.Keeps contract)
    (back : ∀ value, (next value).Keeps contract) : (step >>= next).Keeps contract := by
  intro before
  have first := front before
  cases ran : step before with
  | ok value middle =>
      rw [ran] at first
      rw [bind_of_ok ran]
      exact allows_behind first (back value middle)
  | error fault middle =>
      rw [ran] at first
      rw [bind_of_error ran]
      exact first

/-! ## Single steps -/

theorem keeps_get : Keeps contract (get : Reading Cursor) := fun before => Lawful.refl before

theorem keeps_peek : Keeps contract peek := fun before => Lawful.refl before

theorem keeps_fail (fault : SyntaxFault) : Keeps contract (fail fault : Reading α) :=
  fun before => Lawful.blame before fault

theorem keeps_isAtEnd : Keeps contract isAtEnd := fun before => Lawful.refl before

theorem keeps_skip : Keeps contract skip :=
  fun before => Lawful.move before (List.tail_suffix before.rest)

theorem keeps_sees (kind : Token.Kind) : Keeps contract (sees kind) := by
  refine keeps_get.bind ?_
  intro cursor
  split
  · exact keeps_pure _
  · exact keeps_pure _

theorem keeps_acceptWhen (wanted : Token.Kind → Bool) : Keeps contract (acceptWhen wanted) := by
  intro before
  rw [acceptWhen_eq]
  cases shape : before.rest with
  | nil => exact Lawful.refl before
  | cons token rest =>
      dsimp only
      split
      · exact Lawful.move before (shape ▸ List.suffix_cons token rest)
      · exact Lawful.refl before

theorem keeps_accept (kind : Token.Kind) : Keeps contract (accept kind) :=
  keeps_acceptWhen _

theorem keeps_accepts (kind : Token.Kind) : Keeps contract (accepts kind) :=
  (keeps_accept kind).bind fun _ => keeps_pure _

theorem keeps_expect (kind : Token.Kind) (fault : SyntaxFault) :
    Keeps contract (expect kind fault) := by
  refine (keeps_accept kind).bind ?_
  intro found
  cases found with
  | none => exact keeps_fail fault
  | some token => exact keeps_pure token

theorem keeps_refer (name : Token) : Keeps contract (refer name) :=
  fun before => Lawful.number before

end Reading

namespace Grammar

open Contract Reading

/-! ## Recovery passes over tokens -/

theorem fromBoundary_suffix (previous : Token) (tokens : List Token) :
    fromBoundary previous tokens <:+ tokens := by
  induction tokens generalizing previous with
  | nil => exact List.suffix_refl []
  | cons token rest ih =>
      unfold fromBoundary
      split
      · exact List.suffix_refl _
      · exact (ih token).trans (List.suffix_cons token rest)

theorem synchronized_suffix (tokens : List Token) : synchronized tokens <:+ tokens.tail := by
  cases tokens with
  | nil => exact List.suffix_refl []
  | cons token rest => exact fromBoundary_suffix token rest

variable {contract : Contract} {nested : Reading Expr} {bound : Nat}

/-! ## Expressions -/

section Lists

variable [Lawful contract] {α : Type} {item : Reading α} {tooMany missing : SyntaxFault}

theorem keeps_separatedAfter (keeps : item.Keeps contract) (bound : Nat) (done : List α) :
    (separatedAfter item tooMany missing bound done).Keeps contract := by
  induction bound generalizing done with
  | zero =>
      unfold separatedAfter
      apply Keeps.ite
      · exact (keeps_fail _).bind fun _ => keeps_fail _
      · exact keeps_fail _
  | succ bound ih =>
      have goesOn : Keeps contract (do
          let value ← item
          if ← accepts (.mark .comma) then
            separatedAfter item tooMany missing bound (done ++ [value])
          else return done ++ [value]) := by
        refine keeps.bind ?_
        intro value
        refine (keeps_accepts _).bind ?_
        intro more
        exact .ite (ih _) (keeps_pure _)
      unfold separatedAfter
      apply Keeps.ite
      · exact (keeps_fail _).bind fun _ => goesOn
      · exact goesOn

theorem keeps_separated (keeps : item.Keeps contract) :
    (separated item tooMany missing bound).Keeps contract := by
  refine (keeps_sees _).bind ?_
  intro closes
  exact .ite (keeps_pure _) (keeps_separatedAfter keeps _ _)

end Lists

section Operands

variable [Lawful contract] (keeps : nested.Keeps contract)
include keeps

theorem keeps_primary : (primary nested).Keeps contract := by
  refine keeps_peek.bind ?_
  intro token
  have literal (value : Literal) :
      Keeps contract (do skip; return Expr.literal value : Reading Expr) :=
    keeps_skip.bind fun _ => keeps_pure _
  split
  · exact literal _
  · exact literal _
  · exact literal _
  · exact literal _
  · exact literal _
  · refine keeps_skip.bind ?_
    intro _
    refine (keeps_expect _ _).bind ?_
    intro _
    refine (keeps_expect _ _).bind ?_
    intro _
    exact (keeps_refer token).bind fun _ => keeps_pure _
  · refine keeps_skip.bind ?_
    intro _
    exact (keeps_refer token).bind fun _ => keeps_pure _
  · refine keeps_skip.bind ?_
    intro _
    exact (keeps_refer token).bind fun _ => keeps_pure _
  · refine keeps_skip.bind ?_
    intro _
    refine keeps.bind ?_
    intro _
    exact (keeps_expect _ _).bind fun _ => keeps_pure _
  · exact keeps_fail _

theorem keeps_callsAfter (left : Nat) (callee : Expr) :
    (callsAfter nested bound left callee).Keeps contract := by
  induction left generalizing callee with
  | zero => exact keeps_pure _
  | succ left ih =>
      have called : (arguments nested bound).Keeps contract :=
        (keeps_separated keeps).bind fun _ => (keeps_expect _ _).bind fun _ => keeps_pure _
      unfold callsAfter
      refine (keeps_accepts _).bind ?_
      intro opens
      apply Keeps.ite
      · exact called.bind fun _ => ih _
      · refine (keeps_accepts _).bind ?_
        intro dotted
        apply Keeps.ite
        · exact (keeps_expect _ _).bind fun _ => ih _
        · exact keeps_pure _

theorem keeps_unary : (unary nested bound).Keeps contract := by
  have operators : operatorsInFront.Keeps contract :=
    fun before => Lawful.move before (List.dropWhile_suffix _)
  refine operators.bind ?_
  intro found
  refine Keeps.bind ?_ ?_
  · exact (keeps_primary keeps).bind fun _ => keeps_callsAfter keeps _ _
  · exact fun _ => keeps_pure _

omit keeps in
theorem keeps_leftAssociative {operators : List Token.Kind}
    {build : Expr → Token → Expr → Expr} {operand : Reading Expr}
    (keeps : operand.Keeps contract) :
    (leftAssociative operators build operand bound).Keeps contract := by
  refine keeps.bind ?_
  intro left
  have after (bound : Nat) (left : Expr) :
      (leftAssociativeAfter operators build operand bound left).Keeps contract := by
    induction bound generalizing left with
    | zero => exact keeps_pure _
    | succ bound ih =>
        unfold leftAssociativeAfter
        refine (keeps_acceptWhen _).bind ?_
        intro found
        cases found with
        | none => exact keeps_pure _
        | some operator => exact keeps.bind fun _ => ih _
  exact after bound left

theorem keeps_disjunction : (disjunction nested bound).Keeps contract :=
  keeps_leftAssociative (keeps_leftAssociative (keeps_leftAssociative (keeps_leftAssociative
    (keeps_leftAssociative (keeps_leftAssociative (keeps_unary keeps))))))

end Operands

/-- The fault of a target is found behind the value, so this does not follow from what
the single steps keep to. -/
theorem keeps_assignment [Assigns contract] (keeps : nested.Keeps contract) :
    (assignment nested bound).Keeps contract := by
  refine (keeps_disjunction keeps).bind ?_
  intro target before
  rw [accept]
  obtain ⟨found, middle, ran⟩ := acceptWhen_total (fun found => found = .mark .equal) before
  rw [bind_of_ok ran]
  obtain ⟨rfl, rfl, -⟩ | ⟨equals, rest, rfl, shape, -, rfl⟩ := acceptWhen_ok.mp ran
  · exact Lawful.refl before
  have moved : contract.passes before { before with rest := rest } :=
    Lawful.move before (shape ▸ List.suffix_cons equals rest)
  dsimp only
  have kept := keeps { before with rest := rest }
  cases given : nested { before with rest := rest } with
  | error fault after =>
      rw [given] at kept
      rw [bind_of_error given]
      exact allows_behind moved kept
  | ok value after =>
      rw [given] at kept
      rw [bind_of_ok given]
      cases target with
      | «variable» reference =>
          have assigned : Keeps contract (do return Expr.assign (← refer reference.name) value) :=
            (keeps_refer _).bind fun _ => keeps_pure _
          exact allows_behind (Lawful.trans moved kept) (assigned after)
      | get object name => exact Lawful.trans moved kept
      | _ => exact Assigns.target shape kept

theorem keeps_expression [Assigns contract] (bound : Nat) : (expression bound).Keeps contract := by
  induction bound with
  | zero => exact keeps_fail _
  | succ bound ih => exact keeps_assignment ih

/-- One expression up to the end of the input. -/
theorem keeps_onlyExpression [Assigns contract] : onlyExpression.Keeps contract := by
  refine keeps_get.bind ?_
  intro cursor
  refine (keeps_expression _).bind ?_
  intro value
  refine keeps_isAtEnd.bind ?_
  intro ended
  exact .ite (keeps_pure value) (keeps_fail _)

/-! ## Statements -/

section Recovery

variable {inner part whole : Contract} [Lawful part] (recovers : Recovers inner part whole)
include recovers

omit [Lawful part] in
/-- Recovery from a fault reports it and passes over tokens. It never fails. -/
theorem keeps_recovering {declaration : Reading Stmt} (keeps : declaration.Keeps whole)
    {before : Cursor} (present : before.rest ≠ []) :
    ∃ found after, recovering declaration before = .ok found after ∧
      part.passes before after := by
  have kept := keeps before
  unfold recovering
  cases ran : declaration before with
  | ok statement after =>
      rw [ran] at kept
      exact ⟨_, after, rfl, recovers.whole_part.passes kept⟩
  | error fault after =>
      rw [ran] at kept
      exact ⟨_, _, rfl, recovers.recover present kept⟩

/-- Declarations one after another are read without failing, whatever is between
them. -/
theorem keeps_declarationsUntil {closing : Reading Bool} {declaration : Reading Stmt}
    (look : ∀ cursor, ∃ answer, closing cursor = .ok answer cursor)
    (keeps : declaration.Keeps whole) (bound : Nat) (before : Cursor) :
    ∃ statements after, declarationsUntil closing declaration bound before =
      .ok statements after ∧ part.passes before after := by
  induction bound generalizing before with
  | zero => exact ⟨[], before, rfl, Lawful.refl before⟩
  | succ bound ih =>
      obtain ⟨closed, looked⟩ := look before
      rw [declarationsUntil, bind_of_ok (isAtEnd_ok.mpr ⟨rfl, rfl⟩), bind_of_ok looked]
      split
      · exact ⟨[], before, rfl, Lawful.refl before⟩
      · next goesOn =>
          have present : before.rest ≠ [] := by
            intro ended
            simp [ended] at goesOn
          obtain ⟨first, middle, ran, passed⟩ := keeps_recovering recovers keeps present
          obtain ⟨others, after, follows, passedOn⟩ := ih middle
          refine ⟨first.toList ++ others, after, ?_, Lawful.trans passed passedOn⟩
          rw [bind_of_ok ran, bind_of_ok follows]
          rfl

end Recovery

section Statements

variable {inner part whole : Contract} [Assigns inner] [Lawful part]

section Parts

variable (within : inner.Within part)
include within

theorem keeps_expressionUnless (kind : Token.Kind) : (expressionUnless kind bound).Keeps part := by
  refine (keeps_sees _).bind ?_
  intro absent
  apply Keeps.ite
  · exact keeps_pure _
  · exact ((keeps_expression bound).within within).bind fun _ => keeps_pure _

theorem keeps_variableDeclaration : (variableDeclaration bound).Keeps part := by
  refine (keeps_expect _ _).bind ?_
  intro name
  refine Keeps.bind ?_ ?_
  · refine (keeps_accepts _).bind ?_
    intro given
    apply Keeps.ite
    · exact ((keeps_expression bound).within within).bind fun _ => keeps_pure _
    · exact keeps_pure _
  · exact fun _ => (keeps_expect _ _).bind fun _ => keeps_pure _

omit [Lawful part] within in
/-- An expression with a token behind it. -/
theorem keeps_closed (build : Expr → Stmt) (kind : Token.Kind) (fault : SyntaxFault) :
    Keeps inner (do
      let value ← expression bound
      let _ ← expect kind fault
      return build value) :=
  (keeps_expression bound).bind fun _ => (keeps_expect _ _).bind fun _ => keeps_pure _

theorem keeps_forInitializer : (forInitializer bound).Keeps part := by
  refine (keeps_accepts _).bind ?_
  intro absent
  apply Keeps.ite
  · exact keeps_pure _
  · refine (keeps_accepts _).bind ?_
    intro declares
    apply Keeps.ite
    · exact (keeps_variableDeclaration within).bind fun _ => keeps_pure _
    · exact ((keeps_closed _ _ _).within within).bind fun _ => keeps_pure _

end Parts

omit [Assigns inner] in
theorem keeps_superclass : superclass.Keeps part := by
  refine (keeps_accepts _).bind ?_
  intro inherits
  apply Keeps.ite
  · refine (keeps_expect _ _).bind ?_
    intro name
    exact (keeps_refer name).bind fun _ => keeps_pure _
  · exact keeps_pure _

variable (recovers : Recovers inner part whole) {nested : Position → Reading Stmt}
variable (keeps : ∀ position, (nested position).Keeps whole)
include recovers keeps

omit [Assigns inner] in
theorem keeps_block : (block nested bound).Keeps part := by
  have look (cursor : Cursor) : ∃ answer, sees (.mark .rightBrace) cursor = .ok answer cursor :=
    ⟨_, sees_eq⟩
  have body : Keeps part
      (declarationsUntil (sees (.mark .rightBrace)) (nested .declaration) bound) := by
    intro before
    obtain ⟨statements, after, ran, passed⟩ :=
      keeps_declarationsUntil recovers look (keeps .declaration) bound before
    rw [ran]
    exact passed
  exact body.bind fun _ => (keeps_expect _ _).bind fun _ => keeps_pure _

omit [Assigns inner] in
theorem keeps_function (form : FunctionForm) : (function nested bound form).Keeps part := by
  refine (keeps_expect _ _).bind ?_
  intro name
  refine (keeps_expect _ _).bind ?_
  intro _
  refine (keeps_separated (keeps_expect _ _)).bind ?_
  intro parameters
  refine (keeps_expect _ _).bind ?_
  intro _
  refine (keeps_expect _ _).bind ?_
  intro _
  exact (keeps_block recovers keeps).bind fun _ => keeps_pure _

omit [Assigns inner] in
theorem keeps_classDeclaration : (classDeclaration nested bound).Keeps part := by
  have members (count : Nat) :
      (methods (function nested bound .method) count).Keeps part := by
    induction count with
    | zero => exact keeps_pure _
    | succ count ih =>
        unfold methods
        refine keeps_isAtEnd.bind ?_
        intro ended
        refine (keeps_sees _).bind ?_
        intro closed
        apply Keeps.ite
        · exact keeps_pure _
        · exact (keeps_function recovers keeps _).bind fun _ => ih.bind fun _ => keeps_pure _
  refine (keeps_expect _ _).bind ?_
  intro name
  refine keeps_superclass.bind ?_
  intro superclass
  refine (keeps_expect _ _).bind ?_
  intro _
  refine (members _).bind ?_
  intro methods
  exact (keeps_expect _ _).bind fun _ => keeps_pure _

theorem keeps_conditional : (conditional nested bound).Keeps part := by
  have inside : (nested .statement).Keeps part := (keeps .statement).within recovers.whole_part
  refine (keeps_expect _ _).bind ?_
  intro _
  refine ((keeps_expression bound).within recovers.inner_part).bind ?_
  intro condition
  refine (keeps_expect _ _).bind ?_
  intro _
  refine inside.bind ?_
  intro consequent
  refine Keeps.bind ?_ ?_
  · refine (keeps_accepts _).bind ?_
    intro otherwise
    apply Keeps.ite
    · exact inside.bind fun _ => keeps_pure _
    · exact keeps_pure _
  · exact fun _ => keeps_pure _

theorem keeps_whileLoop : (whileLoop nested bound).Keeps part := by
  refine (keeps_expect _ _).bind ?_
  intro _
  refine ((keeps_expression bound).within recovers.inner_part).bind ?_
  intro condition
  refine (keeps_expect _ _).bind ?_
  intro _
  exact ((keeps .statement).within recovers.whole_part).bind fun _ => keeps_pure _

theorem keeps_forLoop : (forLoop nested bound).Keeps part := by
  refine (keeps_expect _ _).bind ?_
  intro _
  refine (keeps_forInitializer recovers.inner_part).bind ?_
  intro initializer
  refine (keeps_expressionUnless recovers.inner_part _).bind ?_
  intro condition
  refine (keeps_expect _ _).bind ?_
  intro _
  refine (keeps_expressionUnless recovers.inner_part _).bind ?_
  intro increment
  refine (keeps_expect _ _).bind ?_
  intro _
  exact ((keeps .statement).within recovers.whole_part).bind fun _ => keeps_pure _

omit [Assigns inner] [Lawful part] keeps in
/-- A statement goes on behind its first token. -/
theorem keeps_behind {rest : Reading Stmt} (kept : rest.Keeps part) :
    Keeps whole (do skip; rest) := by
  intro before
  have behind := kept { before with rest := before.rest.tail }
  change whole.Allows before (rest { before with rest := before.rest.tail })
  generalize rest { before with rest := before.rest.tail } = result at behind ⊢
  cases result with
  | ok statement after => exact recovers.passes_behind behind
  | error fault after => exact recovers.fails_behind behind

theorem keeps_plainStatement : (plainStatement nested bound).Keeps whole := by
  intro before
  rw [plainStatement, bind_of_ok (peek_ok.mpr ⟨rfl, rfl⟩)]
  generalize before.peek.kind = kind
  split
  · exact keeps_behind recovers (keeps_forLoop recovers keeps) before
  · exact keeps_behind recovers (keeps_conditional recovers keeps) before
  · exact keeps_behind recovers (keeps_whileLoop recovers keeps) before
  · have returned : (returnStatement before.peek bound).Keeps part :=
      (keeps_expressionUnless recovers.inner_part _).bind fun _ =>
        (keeps_expect _ _).bind fun _ => keeps_pure _
    exact keeps_behind recovers returned before
  · have blocked : Keeps part (do return Stmt.block (← block nested bound)) :=
      (keeps_block recovers keeps).bind fun _ => keeps_pure _
    exact keeps_behind recovers blocked before
  · exact keeps_behind recovers ((keeps_closed _ _ _).within recovers.inner_part) before
  · exact (keeps_closed _ _ _).within recovers.inner_whole before

theorem keeps_declaration : (declaration nested bound).Keeps whole := by
  intro before
  rw [declaration, bind_of_ok (peek_ok.mpr ⟨rfl, rfl⟩)]
  generalize before.peek.kind = kind
  split
  · exact keeps_behind recovers (keeps_classDeclaration recovers keeps) before
  · have declared : Keeps part (do return Stmt.function (← function nested bound .function)) :=
      (keeps_function recovers keeps _).bind fun _ => keeps_pure _
    exact keeps_behind recovers declared before
  · exact keeps_behind recovers (keeps_variableDeclaration recovers.inner_part) before
  · exact keeps_plainStatement recovers keeps before

omit keeps in
theorem keeps_statement (bound : Nat) (position : Position) :
    (statement bound position).Keeps whole := by
  induction bound generalizing position with
  | zero => exact (keeps_fail _).within recovers.inner_whole
  | succ bound ih =>
      cases position with
      | declaration => exact keeps_declaration recovers ih
      | statement => exact keeps_plainStatement recovers ih

omit keeps in
/-- A whole input is read without failing: its faults are reported. -/
theorem keeps_program (before : Cursor) :
    ∃ statements after, program before = .ok statements after ∧ part.passes before after :=
  keeps_declarationsUntil recovers (fun _ => ⟨false, rfl⟩) (keeps_statement recovers _ _)
    before.rest.length before

end Statements

end Grammar

end Lox
