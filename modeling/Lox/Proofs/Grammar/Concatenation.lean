import Lox.Proofs.Grammar.Correspondence
import Lox.Proofs.Grammar.Extension
import Lox.Proofs.Indexed.Total

/-!
# Programs are read one behind another

Behind the tokens of a valid program others are read as if they stood alone, unless they
go on with an alternative of its last condition. What is valid there continues the
program, and what is not has the same faults.
-/

namespace Lox.Grammar

open Reading

variable {front back : List Token} {closing stop : Token} {first second third : Nat}
variable {statements : List Stmt}

section Open

variable (frontOpen : ∀ token ∈ front, token.kind ≠ .stop) (closes : closing.kind = .stop)
variable (accepted : (readProgram (front ++ [closing]) first).1 = .ok statements)
include frontOpen closes accepted

/-- The statements of a program stand in front of whatever follows its tokens. -/
theorem many_in_front (back : List Token) :
    Many (Statement .declaration) (front ++ back) statements back := by
  have derivation := (sound_readProgram accepted).1
  rw [← (split_eq _).1, split_append frontOpen closes] at derivation
  exact extends_many (extends_statement .declaration) derivation

variable (backOpen : ∀ token ∈ back, token.kind ≠ .stop) (stops : stop.kind = .stop)
include backOpen stops

/-- Two programs one behind another are a program. -/
theorem accepted_append {others : List Stmt}
    (valid : (readProgram (back ++ [stop]) second).1 = .ok others) (third : Nat) :
    ∃ both, (readProgram (front ++ back ++ [stop]) third).1 = .ok both ∧
      Stmt.listUnnumbered both = Stmt.listUnnumbered (statements ++ others) := by
  have derivation := (sound_readProgram valid).1
  rw [← (split_eq _).1, split_append backOpen stops] at derivation
  have bothOpen : ∀ token ∈ front ++ back, token.kind ≠ .stop :=
    List.forall_mem_append.mpr ⟨frontOpen, backOpen⟩
  apply complete_readProgram third
  rw [← (split_eq _).1, split_append bothOpen stops]
  exact (many_in_front frontOpen closes accepted back).append derivation

variable (noElse : Reading.front (.keyword .else) back = false)
include noElse

/-- Behind a program, reading goes on as it starts in front of the tokens left. -/
theorem program_through (third : Nat) :
    ∃ read next, program (.ofTokens (front ++ back ++ [stop]) third) =
      (do return read ++ (← program)) (.ofTokens (back ++ [stop]) next) := by
  have bothOpen : ∀ token ∈ front ++ back, token.kind ≠ .stop :=
    List.forall_mem_append.mpr ⟨frontOpen, backOpen⟩
  have start : Cursor.ofTokens (front ++ back ++ [stop]) third =
      ⟨front ++ back, stop, third, []⟩ := by
    rw [Cursor.ofTokens, split_append bothOpen stops]
  have look (cursor : Cursor) : (pure false : Reading Bool) cursor = .ok false cursor := rfl
  obtain ⟨read, middle, left, stopped, quiet, covers, -, goesOn⟩ :=
    declarationsUntil_through (fun _ => false) look
      (complete_statement (front ++ back).length .declaration)
      (shortens_statement .declaration) (starts_statement .declaration) (fun _ _ _ => rfl)
      ⟨front ++ back, stop, third, []⟩ (many_in_front frontOpen closes accepted back) rfl
      (Nat.le_refl _) (Nat.le_refl _) noElse
  have recovers : Contract.Recovers (.along Cursor.SameStop) (.along Cursor.SameStop)
      (.along Cursor.SameStop) := recovers_along
  -- The closing token is the same at the end of both readings, and so it is between them.
  have sameStop : middle.stop = stop := by
    obtain ⟨_, last, ran, same⟩ := keeps_program recovers ⟨front ++ back, stop, third, []⟩
    obtain ⟨others, after, further, sameAfter⟩ :=
      keeps_declarationsUntil recovers (fun cursor => ⟨false, look cursor⟩)
        (keeps_statement recovers (front ++ back).length .declaration) left middle
    have ends : EStateM.Result.ok _ last = .ok (read ++ others) after :=
      ran.symm.trans (goesOn.trans (bind_of_ok further))
    cases ends
    exact sameAfter.symm.trans same
  have place : middle = .ofTokens (back ++ [stop]) middle.nextReference := by
    rw [Cursor.ofTokens, split_append backOpen stops]
    obtain ⟨rest, _, next, reported⟩ := middle
    obtain rfl : rest = back := stopped
    obtain rfl : reported = [] := quiet
    exact congrArg (Cursor.mk rest · next []) sameStop
  have tracks : Indexed.Tracks _ _ (.ofTokens (back ++ [stop]) middle.nextReference) :=
    Indexed.tracks_start stops middle.nextReference
  rw [← place] at tracks
  refine ⟨read, middle.nextReference, ?_⟩
  rw [start, ← place]
  refine goesOn.trans (bind_of_eq (Indexed.program_of_bounds tracks ?_ ?_))
  · rw [stopped]
    simp
  · rw [stopped]
    exact covers

/-- Behind a program the faults are those of the tokens left. -/
theorem rejected_append {faults : List Diagnostic}
    (rejected : (readProgram (back ++ [stop]) second).1 = .error faults) (third : Nat) :
    (readProgram (front ++ back ++ [stop]) third).1 = .error faults := by
  obtain ⟨read, next, goesOn⟩ :=
    program_through frontOpen closes accepted backOpen stops noElse third
  have cursors : (Cursor.ofTokens (back ++ [stop]) second).Alike (.exact fun _ _ => True)
      (.ofTokens (back ++ [stop]) next) :=
    alike_ofTokens (List.forall₂_same.mpr fun _ _ => rfl) rfl second next
  have again : (readProgram (back ++ [stop]) next).1 = .error faults := by
    have alike := alike_readProgram (fun _ _ => trivial) cursors
    rw [rejected] at alike
    generalize (readProgram (back ++ [stop]) next).1 = answer at alike ⊢
    cases alike with
    | error same => rw [Diagnostic.list_eq same]
  obtain ⟨others, after, ran, reported, some⟩ := readProgram_error.mp again
  refine readProgram_error.mpr ⟨read ++ others, after, ?_, reported, some⟩
  rw [goesOn, bind_of_ok ran]
  rfl

end Open

/-- In front of other tokens, a program that is accepted is read as it is alone, and the
tokens behind it are read as they are alone: to a program that follows the first one, or
to the same faults. The tokens behind must not go on with an alternative of its last
condition. -/
theorem readProgram_append (frontOpen : ∀ token ∈ front, token.kind ≠ .stop)
    (backOpen : ∀ token ∈ back, token.kind ≠ .stop) (closes : closing.kind = .stop)
    (stops : stop.kind = .stop)
    (noElse : ∀ token, back.head? = some token → token.kind ≠ .keyword .else)
    (accepted : (readProgram (front ++ [closing]) first).1 = .ok statements)
    (second third : Nat) :
    (∀ others, (readProgram (back ++ [stop]) second).1 = .ok others →
      ∃ both, (readProgram (front ++ back ++ [stop]) third).1 = .ok both ∧
        Stmt.listUnnumbered both = Stmt.listUnnumbered (statements ++ others)) ∧
    ∀ faults, (readProgram (back ++ [stop]) second).1 = .error faults →
      (readProgram (front ++ back ++ [stop]) third).1 = .error faults := by
  have unseen : Reading.front (.keyword .else) back = false := by
    cases back with
    | nil => rfl
    | cons token rest => simpa [Reading.front] using noElse token rfl
  constructor
  · intro others valid
    exact accepted_append frontOpen closes accepted backOpen stops valid third
  · intro faults rejected
    exact rejected_append frontOpen closes accepted backOpen stops unseen rejected third

/-- A condition without an alternative, in front of a statement and in front of a
parenthesis that closes nothing. -/
theorem readProgram_append_condition :
    ∃ front valid invalid stop statements others both faults,
      front = [⟨.keyword .if, "if", 1⟩, ⟨.mark .leftParen, "(", 1⟩, ⟨.keyword .true, "true", 1⟩,
        ⟨.mark .rightParen, ")", 1⟩, ⟨.identifier, "a", 1⟩, ⟨.mark .semicolon, ";", 1⟩] ∧
      valid = [⟨.identifier, "b", 2⟩, ⟨.mark .semicolon, ";", 2⟩] ∧
      invalid = [⟨.mark .rightParen, ")", 2⟩] ∧ stop = .atEnd 2 ∧
      (readProgram (front ++ [stop]) 0).1 = .ok statements ∧
      (readProgram (valid ++ [stop]) 0).1 = .ok others ∧
      (readProgram (front ++ valid ++ [stop]) 0).1 = .ok both ∧
      Stmt.listUnnumbered both = Stmt.listUnnumbered (statements ++ others) ∧
      (readProgram (invalid ++ [stop]) 0).1 = .error faults ∧
      (readProgram (front ++ invalid ++ [stop]) 0).1 = .error faults := by
  have accepted : (readProgram ([⟨.keyword .if, "if", 1⟩, ⟨.mark .leftParen, "(", 1⟩,
      ⟨.keyword .true, "true", 1⟩, ⟨.mark .rightParen, ")", 1⟩, ⟨.identifier, "a", 1⟩,
      ⟨.mark .semicolon, ";", 1⟩] ++ [.atEnd 2]) 0).1 =
      .ok [.conditional (.literal (.bool true)) (.expression (.variable ⟨⟨.identifier, "a", 1⟩, 0⟩))
        none] := rfl
  have valid : (readProgram ([⟨.identifier, "b", 2⟩, ⟨.mark .semicolon, ";", 2⟩] ++
      [.atEnd 2]) 0).1 = .ok [.expression (.variable ⟨⟨.identifier, "b", 2⟩, 0⟩)] := rfl
  have invalid : (readProgram ([⟨.mark .rightParen, ")", 2⟩] ++ [.atEnd 2]) 0).1 =
      .error [.syntactic ⟨.mark .rightParen, ")", 2⟩ .expression] := rfl
  obtain ⟨both, read, same⟩ :=
    (readProgram_append (by simp) (by simp) rfl rfl (by simp) accepted 0 0).1 _ valid
  have fails :=
    (readProgram_append (by simp) (by simp) rfl rfl (by simp) accepted 0 0).2 _ invalid
  exact ⟨_, _, _, _, _, _, both, _, rfl, rfl, rfl, rfl, accepted, valid, read, same, invalid,
    fails⟩

end Lox.Grammar
