import Lox.Proofs.Grammar.Exactness
import Lox.Proofs.Grammar.Supply
import Lox.Proofs.Indexed.Statement
import Mathlib.Data.List.TakeWhile

/-!
# Every input is read to an end

A reader by index that starts in front of a closed list of tokens comes to an end in as
many steps as there are tokens, with the answer of the grammar. On the way its index
never passes the first closing token, and no token is looked up where there is none.
-/

namespace Lox.Indexed

open Grammar (Position contents)

variable {limit steps : Nat} {reader : Reader} {cursor : Cursor}

/-- A program is simulated by as many steps as there are tokens, whatever the bounds that
cover these. -/
theorem program_ends {bound left : Nat} (tracks : Tracks limit reader cursor)
    (within : cursor.rest.length < steps) (covers : cursor.rest.length ≤ bound)
    (sufficient : cursor.rest.length ≤ left) :
    Ends limit cursor.rest.length 0 (program steps reader)
      (Grammar.declarationsUntil (pure false) (Grammar.statement bound .declaration) left
        cursor) := by
  have declarations : Simulates limit (cursor.rest.length + 1) 1 (statement steps .declaration)
      (Grammar.statement bound .declaration) :=
    simulates_statement within (Nat.succ_le_succ covers) .declaration
  exact simulates_declarationsUntil looks_never declarations within _ (Nat.le_refl _) within
    (Nat.succ_le_succ sufficient) tracks (Nat.lt_succ_self _)

/-- Bounds that cover the tokens make no difference to a program. -/
theorem program_of_bounds {bound left : Nat} (tracks : Tracks limit reader cursor)
    (covers : cursor.rest.length ≤ bound) (sufficient : cursor.rest.length ≤ left) :
    Grammar.declarationsUntil (pure false) (Grammar.statement bound .declaration) left cursor =
      Grammar.program cursor :=
  (program_ends tracks (Nat.lt_succ_self _) covers sufficient).unique
    (program_ends tracks (Nat.lt_succ_self _) (Nat.le_refl _) (Nat.le_refl _))

theorem onlyExpression_ends (tracks : Tracks limit reader cursor)
    (within : cursor.rest.length < steps) :
    Ends limit cursor.rest.length 0 (onlyExpression steps reader)
      (Grammar.onlyExpression cursor) := by
  have value := simulates_expression within (Nat.le_refl _) tracks (Nat.lt_succ_self _)
  refine Ends.bind value (Nat.lt_succ_self _) ?_
  intro value
  refine simulates_isAtEnd.bind ?_
  intro ended
  apply Simulates.ite
  · exact .pure _
  · exact simulates_fail _

/-! ## Closed lists of tokens -/

section Closed

variable {tokens : List Token} {stop : Token} (closing : stop.kind = .stop)
include closing

theorem tracks_start (next : Nat) :
    Tracks (contents (tokens ++ [stop])).length (.start (tokens ++ [stop]) next)
      (.ofTokens (tokens ++ [stop]) next) := by
  have closed : ∃ token ∈ tokens ++ [stop], token.kind = .stop := ⟨stop, by simp, closing⟩
  obtain ⟨behind, shape⟩ := Grammar.split_shape closed
  obtain ⟨front, closes⟩ := Grammar.split_eq (tokens ++ [stop])
  constructor
  case place =>
    change 0 + (Cursor.split (tokens ++ [stop])).1.length = _
    rw [front, Nat.zero_add, contents]
  case behind =>
    refine ⟨behind, ?_⟩
    change (Cursor.split (tokens ++ [stop])).1 ++ [(Cursor.split (tokens ++ [stop])).2] ++
      behind = tokens ++ [stop]
    rw [List.append_assoc]
    exact shape.symm
  case inner =>
    intro token inside
    change token ∈ (Cursor.split (tokens ++ [stop])).1 at inside
    rw [front] at inside
    simpa using List.mem_takeWhile_imp inside
  case closing => exact closes
  case visited => simp [Reader.start]
  case next => rfl
  case reported => rfl

theorem start_within {next steps : Nat} (enough : (tokens ++ [stop]).length ≤ steps) :
    (Cursor.ofTokens (tokens ++ [stop]) next).rest.length < steps := by
  have closed : ∃ token ∈ tokens ++ [stop], token.kind = .stop := ⟨stop, by simp, closing⟩
  obtain ⟨behind, shape⟩ := Grammar.split_shape closed
  have length := congrArg List.length shape
  simp only [List.length_append, List.length_cons] at length enough
  change (Cursor.split (tokens ++ [stop])).1.length < steps
  omega

/-- A closed list of tokens is read as a program and as an expression in as many steps
as it has tokens, with the answers of the grammar. The reader never halts for want of
steps or of a token, and its index is never behind the first closing token. -/
theorem reads_to_an_end (next steps : Nat) (enough : (tokens ++ [stop]).length ≤ steps) :
    (∃ statements after,
      program steps (.start (tokens ++ [stop]) next) = .ok statements after ∧
      (∀ index ∈ after.visited, index ≤ (contents (tokens ++ [stop])).length) ∧
      Grammar.readProgram (tokens ++ [stop]) next =
        (if after.reported.isEmpty then .ok statements else .error after.reported,
          after.nextReference)) ∧
    ((∃ value after,
      onlyExpression steps (.start (tokens ++ [stop]) next) = .ok value after ∧
      (∀ index ∈ after.visited, index ≤ (contents (tokens ++ [stop])).length) ∧
      Grammar.readExpression (tokens ++ [stop]) next = (.ok value, after.nextReference)) ∨
    ∃ diagnostic after,
      onlyExpression steps (.start (tokens ++ [stop]) next) = .error (.fault diagnostic) after ∧
      (∀ index ∈ after.visited, index ≤ (contents (tokens ++ [stop])).length) ∧
      Grammar.readExpression (tokens ++ [stop]) next =
        (.error diagnostic, after.nextReference)) := by
  have tracks : Tracks (contents (tokens ++ [stop])).length (.start (tokens ++ [stop]) next)
      (.ofTokens (tokens ++ [stop]) next) := tracks_start closing next
  have within : (Cursor.ofTokens (tokens ++ [stop]) next).rest.length < steps :=
    start_within closing enough
  constructor
  · obtain ⟨statements, after, ran, -⟩ :=
      Grammar.supplies_program (.ofTokens (tokens ++ [stop]) next)
    have ends : Ends _ _ 0 (program steps _) (Grammar.program _) :=
      program_ends tracks within (Nat.le_refl _) (Nat.le_refl _)
    unfold Grammar.readProgram
    rw [ran] at ends ⊢
    generalize program steps _ = result at ends ⊢
    cases ends with
    | @ok _ reader _ stands _ =>
        refine ⟨statements, reader, rfl, stands.visited, ?_⟩
        rw [stands.reported, stands.next]
        cases reports : after.reported <;> simp [reports]
  · have ends := onlyExpression_ends tracks within
    unfold Grammar.readExpression
    generalize onlyExpression steps _ = result at ends ⊢
    generalize Grammar.onlyExpression _ = outcome at ends ⊢
    cases ends with
    | @ok value reader _ stands _ =>
        exact .inl ⟨value, reader, rfl, stands.visited, by rw [stands.next]⟩
    | @fault diagnostic reader _ stands _ =>
        exact .inr ⟨diagnostic, reader, rfl, stands.visited, by rw [stands.next]⟩

end Closed

/-- A parenthesis that closes nothing, and a token behind the first closing one. Recovery
passes over the parenthesis, and the index stops in front of the closing token. -/
theorem reads_to_an_end_behind_closing :
    ∃ tokens stop statements after,
      tokens = [⟨.mark .rightParen, ")", 1⟩, .atEnd 1, ⟨.mark .semicolon, ";", 2⟩] ∧
      stop = .atEnd 2 ∧ stop.kind = .stop ∧ (tokens ++ [stop]).length ≤ 4 ∧
      program 4 (.start (tokens ++ [stop]) 0) = .ok statements after ∧
      (∀ index ∈ after.visited, index ≤ 1) ∧
      after.reported = [.syntactic ⟨.mark .rightParen, ")", 1⟩ .expression] := by
  have answer : Grammar.readProgram ([⟨.mark .rightParen, ")", 1⟩, .atEnd 1,
      ⟨.mark .semicolon, ";", 2⟩] ++ [.atEnd 2]) 0 =
      (.error [.syntactic ⟨.mark .rightParen, ")", 1⟩ .expression], 0) := by
    rfl
  have closing : (Token.atEnd 2).kind = .stop := rfl
  have enough : (([⟨.mark .rightParen, ")", 1⟩, .atEnd 1, ⟨.mark .semicolon, ";", 2⟩] ++
      [.atEnd 2] : List Token)).length ≤ 4 := Nat.le_refl _
  obtain ⟨⟨statements, after, ran, within, same⟩, -⟩ := reads_to_an_end closing 0 4 enough
  refine ⟨_, _, statements, after, rfl, rfl, closing, enough, ran, within, ?_⟩
  rw [answer] at same
  cases reports : after.reported with
  | nil => simp [reports] at same
  | cons first others => simpa [reports, eq_comm] using congrArg Prod.fst same

end Lox.Indexed
