import Lox.Proofs.Grammar.Soundness.Expression
import Lox.Proofs.Indexed.Simulation

/-!
# Expressions by index

Each production of the reader by index simulates the one of the grammar. A lemma assumes
this of the nested expressions, which start behind at least one token, and so the whole
takes one induction on the length.

The lists, the calls and the levels of operators are loops. Each of their rounds passes
over a token, which is why they end before their steps do.
-/

namespace Lox.Indexed

open Reading (skip accept acceptWhen accepts expect failAt)
open Grammar (literal? isPrefixOperator)

variable {limit length steps most bound left : Nat}

/-! ## Lists -/

section Lists

variable {α : Type} {item : Stepping α} {reading : Reading α} {tooMany missing : SyntaxFault}

theorem simulates_itemsAfter (simulates : Simulates limit length 1 item reading)
    (within : length ≤ steps) (bounded : length ≤ bound) (done : List α) :
    Simulates limit length 1 (itemsAfter item tooMany steps done)
      (Grammar.separatedAfter reading tooMany missing bound done) := by
  induction length generalizing steps bound done with
  | zero => exact simulates_nothing
  | succ length ih =>
      obtain - | steps := steps
      · omega
      obtain - | bound := bound
      · omega
      unfold itemsAfter Grammar.separatedAfter
      apply Simulates.ite
      · exact simulates_fail_bind tooMany
      · refine simulates.bind ?_
        intro value
        apply simulates_takes
        · exact (ih (simulates.weaken (by omega) (by omega)) (by omega) (by omega) _).weaken
            (by omega) (by omega)
        · exact .pure _

theorem simulates_items (simulates : Simulates limit length 1 item reading)
    (within : length ≤ steps) (bounded : length ≤ bound) :
    Simulates limit length 0 (items item tooMany steps)
      (Grammar.separated reading tooMany missing bound) := by
  refine (simulates_check _).bind ?_
  intro closes
  apply Simulates.ite
  · exact .pure _
  · exact (simulates_itemsAfter simulates within bounded _).weaken (by omega) (by omega)

end Lists

/-! ## Operands -/

section Operands

variable {nested : Stepping Expr} {inner : Reading Expr}
variable (nests : Simulates limit length 1 nested inner)

/-- The kinds of tokens that start a primary expression, looked for one after another. -/
theorem primary_eq {cursor : Cursor} (closing : cursor.stop.kind = .stop) :
    Grammar.primary inner cursor = (do
      let token ← Reading.peek
      match literal? token.kind with
      | some value => skip; return Expr.literal value
      | none =>
          match ← accept (.keyword .super) with
          | some keyword =>
              let _ ← expect (.mark .dot) .superDot
              let method ← expect .identifier .superMethod
              return .super (← Reading.refer keyword) method
          | none =>
              match ← accept (.keyword .this) with
              | some keyword => return .this (← Reading.refer keyword)
              | none =>
                  match ← accept .identifier with
                  | some name => return .variable (← Reading.refer name)
                  | none =>
                      if ← accepts (.mark .leftParen) then
                        let value ← inner
                        let _ ← expect (.mark .rightParen) .groupClosing
                        return .grouping value
                      else failAt token .expression) cursor := by
  refine eq_of_kinds ?_ ?_ closing
  · exact fun _ _ _ _ => rfl
  · intro kind _ _ _ _ _ _
    cases kind with
    | mark mark => cases mark <;> rfl
    | keyword keyword => cases keyword <;> rfl
    | _ => rfl

include nests

theorem simulates_primary :
    Simulates limit (length + 1) 1 (primary nested) (Grammar.primary inner) := by
  refine Simulates.congr ?_ fun _ => primary_eq
  intro reader cursor tracks fits
  rw [primary, bind_of_ok (peek_eq tracks), Reading.bind_of_ok (Reading.peek_ok.mpr ⟨rfl, rfl⟩)]
  cases written : literal? cursor.peek.kind with
  | some value =>
      cases shape : cursor.rest with
      | nil => simp [Cursor.peek, shape, tracks.closing, literal?] at written
      | cons token rest =>
          dsimp only
          rw [bind_of_ok (advance_eq tracks shape),
            Reading.bind_of_ok (Reading.skip_of_front shape)]
          exact .ok (tracks.moved shape) (Nat.le_refl _)
  | none =>
      refine (decides_takes _).simulates ?_ ?_ tracks fits
      · intro keyword
        refine (simulates_consume _ _).bind ?_
        intro _
        refine (simulates_consume _ _).bind ?_
        intro method
        exact (simulates_refer keyword).bind fun _ => .pure _
      refine (decides_takes _).simulates ?_ ?_
      · exact fun keyword => (simulates_refer keyword).bind fun _ => .pure _
      refine (decides_takes _).simulates ?_ ?_
      · exact fun name => (simulates_refer name).bind fun _ => .pure _
      apply simulates_takes
      · refine (nests.shorter (by omega)).bind ?_
        intro value
        exact (simulates_consume _ _).bind fun _ => .pure _
      · exact simulates_failAt _ _

/-- Every round passes over a dot or a parenthesis. -/
theorem simulates_callsAfter (among : length ≤ most) (bounded : length ≤ bound)
    (count : Nat) (fits : count ≤ length) (within : count ≤ steps) (enough : count ≤ left)
    (callee : Expr) :
    Simulates limit count 0 (callsAfter nested most steps callee)
      (Grammar.callsAfter inner bound left callee) := by
  induction count generalizing steps left callee with
  | zero => exact simulates_nothing
  | succ count ih =>
      obtain - | steps := steps
      · omega
      obtain - | left := left
      · omega
      unfold callsAfter Grammar.callsAfter
      simp only [Grammar.arguments, bind_assoc, pure_bind]
      apply simulates_takes
      · refine (simulates_items (nests.shorter ?_) ?_ ?_).bind ?_
        · omega
        · omega
        · omega
        intro values
        refine (simulates_consume _ _).bind ?_
        intro paren
        exact (ih (by omega) (by omega) (by omega) _).weaken (by omega) (by omega)
      apply simulates_takes
      · refine (simulates_consume _ _).bind ?_
        intro name
        exact (ih (by omega) (by omega) (by omega) _).weaken (by omega) (by omega)
      · exact .pure _

omit nests in
theorem decides_operators :
    Decides (takesAny [.mark .bang, .mark .minus]) previous isPrefixOperator := by
  have same : isPrefixOperator = [Token.Kind.mark .bang, .mark .minus].contains := by
    funext kind
    simp [isPrefixOperator]
  rw [same]
  exact decides_takesAny _

theorem simulates_unary (among : length < most) (bounded : length ≤ bound) (count : Nat)
    (fits : count ≤ length + 1) (within : count ≤ steps) :
    Simulates limit count 1 (unary nested most steps) (Grammar.unary inner bound) := by
  induction count generalizing steps with
  | zero => exact simulates_nothing
  | succ count ih =>
      obtain - | steps := steps
      · omega
      rw [unary, Grammar.unary_eq]
      refine decides_operators.simulates ?_ ?_
      · intro operator
        exact (ih (by omega) (by omega)).bind fun _ => .pure _
      · refine ((simulates_primary nests).shorter fits).bind ?_
        intro callee
        exact simulates_callsAfter nests (by omega) bounded _ (by omega) (by omega) (by omega) _

end Operands

/-! ## Levels of operators -/

section Levels

variable {operand : Stepping Expr} {reading : Reading Expr} {operators : List Token.Kind}
variable {kind : Token.Kind} (simulates : Simulates limit (length + 1) 1 operand reading)
include simulates

theorem simulates_binaryAfter {kinds : List Token.Kind} (same : kinds.contains = operators.contains)
    (count : Nat) (fits : count ≤ length) (within : count ≤ steps) (enough : count ≤ bound)
    (expr : Expr) :
    Simulates limit count 0 (binaryAfter kinds operand steps expr)
      (Grammar.leftAssociativeAfter operators .binary reading bound expr) := by
  induction count generalizing steps bound expr with
  | zero => exact simulates_nothing
  | succ count ih =>
      obtain - | steps := steps
      · omega
      obtain - | bound := bound
      · omega
      unfold binaryAfter Grammar.leftAssociativeAfter
      rw [← same]
      refine (decides_checkAny _).simulates ?_ ?_
      · intro operator
        refine (simulates.shorter (by omega)).bind ?_
        intro right
        exact (ih (by omega) (by omega) (by omega) _).weaken (by omega) (by omega)
      · exact .pure _

theorem simulates_logicalAfter (count : Nat) (fits : count ≤ length) (within : count ≤ steps)
    (enough : count ≤ bound) (expr : Expr) :
    Simulates limit count 0 (logicalAfter kind operand steps expr)
      (Grammar.leftAssociativeAfter [kind] .logical reading bound expr) := by
  induction count generalizing steps bound expr with
  | zero => exact simulates_nothing
  | succ count ih =>
      obtain - | steps := steps
      · omega
      obtain - | bound := bound
      · omega
      unfold logicalAfter Grammar.leftAssociativeAfter
      have same : (fun found => decide (found = kind)) = [kind].contains := by
        funext found
        simp
      rw [← same]
      refine (decides_takes _).simulates ?_ ?_
      · intro operator
        refine (simulates.shorter (by omega)).bind ?_
        intro right
        exact (ih (by omega) (by omega) (by omega) _).weaken (by omega) (by omega)
      · exact .pure _

theorem simulates_binary {kinds : List Token.Kind} (same : kinds.contains = operators.contains)
    (within : length ≤ most) (enough : length ≤ bound) :
    Simulates limit (length + 1) 1 (binary kinds operand most)
      (Grammar.leftAssociative operators .binary reading bound) := by
  refine simulates.bind ?_
  exact simulates_binaryAfter simulates same _ (Nat.le_refl _) within enough

theorem simulates_logical (within : length ≤ most) (enough : length ≤ bound) :
    Simulates limit (length + 1) 1 (logical kind operand most)
      (Grammar.leftAssociative [kind] .logical reading bound) := by
  refine simulates.bind ?_
  exact simulates_logicalAfter simulates _ (Nat.le_refl _) within enough

end Levels

/-! ## Whole expressions -/

section Whole

variable {nested : Stepping Expr} {inner : Reading Expr}
variable (nests : Simulates limit length 1 nested inner)
variable (within : length < most) (enough : length ≤ bound)
include nests within enough

theorem simulates_disjunction :
    Simulates limit (length + 1) 1 (disjunction nested most)
      (Grammar.disjunction inner bound) := by
  have fewer : length ≤ most := Nat.le_of_lt within
  have factors : Simulates limit (length + 1) 1 (factor nested most)
      (Grammar.factor inner bound) := by
    refine simulates_binary ?_ ?_ fewer enough
    · exact simulates_unary nests within enough _ (Nat.le_refl _) within
    · funext kind
      simp [or_comm]
  refine simulates_logical ?_ fewer enough
  refine simulates_logical ?_ fewer enough
  refine simulates_binary ?_ rfl fewer enough
  refine simulates_binary ?_ rfl fewer enough
  exact simulates_binary factors rfl fewer enough

theorem simulates_assignment :
    Simulates limit (length + 1) 1 (assignment nested most) (Grammar.assignment inner bound) := by
  refine (simulates_disjunction nests within enough).bind ?_
  intro target
  refine (decides_takes _).simulates ?_ ?_
  · intro equals
    refine (nests.shorter (by omega)).bind ?_
    intro value
    cases target with
    | «variable» reference => exact (simulates_refer _).bind fun _ => .pure _
    | get object name => exact .pure _
    | _ => exact simulates_failAt _ _
  · exact .pure _

end Whole

/-- Without any tokens there is no expression, whatever the bound. -/
theorem expression_at_end (bound : Nat) {cursor : Cursor} (ended : cursor.rest = [])
    (closing : cursor.stop.kind = .stop) :
    Grammar.expression bound cursor = Reading.fail .expression cursor := by
  cases bound with
  | zero => rfl
  | succ bound =>
      have primary : Grammar.primary (Grammar.expression bound) cursor =
          .error (.syntactic cursor.peek .expression) cursor := by
        obtain ⟨rest, ⟨kind, lexeme, line⟩, next, reported⟩ := cursor
        obtain rfl : rest = [] := ended
        obtain rfl : kind = .stop := closing
        rfl
      have unary : Grammar.unary (Grammar.expression bound) (bound + 1) cursor =
          .error (.syntactic cursor.peek .expression) cursor := by
        rw [Grammar.unary_eq, Reading.bind_of_ok (Reading.acceptWhen_ok.mpr (.inl ⟨rfl, rfl, ?_⟩))]
        · exact Reading.bind_of_error primary
        · simp [ended]
      iterate 7 refine Reading.bind_of_error ?_
      exact unary

/-- An expression takes at least one token, and so as many steps as there are tokens are
enough for it. -/
theorem simulates_expression (within : length ≤ steps) (enough : length ≤ bound + 1) :
    Simulates limit length 1 (expression steps) (Grammar.expression bound) := by
  induction length generalizing steps bound with
  | zero => exact simulates_nothing
  | succ length ih =>
      obtain - | steps := steps
      · omega
      have covered (bound : Nat) (enough : length ≤ bound + 1) :
          Simulates limit (length + 1) 1 (expression (steps + 1))
            (Grammar.expression (bound + 1)) :=
        simulates_assignment (ih (by omega) (by omega)) (by omega) (by omega)
      obtain - | bound := bound
      · obtain rfl : length = 0 := by omega
        refine (covered 0 (by omega)).at_end ?_
        intro reader cursor tracks ended
        exact (expression_at_end 1 ended tracks.closing).symm
      · exact covered bound (by omega)

end Lox.Indexed
