import Lox.Proofs.Grammar.Completeness.Statement

/-!
# Exactly the programs of the grammar are accepted

Soundness and completeness meet here. The reading of a list of tokens gives one
result, so completeness also says that the rules are unambiguous: any two trees
of one list are the tree that is read.
-/

namespace Lox.Grammar

/-- The tokens in front of the first closing one. -/
def contents (tokens : List Token) : List Token :=
  tokens.takeWhile fun token => token.kind ≠ .stop

/-- Two trees of the same tokens differ in the numbers of uses of names only. -/
theorem Program.unique {tokens : List Token} {first second : List Stmt}
    (derivation : Program (contents tokens) first) (other : Program (contents tokens) second) :
    Stmt.listUnnumbered first = Stmt.listUnnumbered second := by
  obtain ⟨read, accepted, sameFirst⟩ := complete_readProgram 0 derivation
  obtain ⟨again, acceptedAgain, sameSecond⟩ := complete_readProgram 0 other
  rw [accepted] at acceptedAgain
  cases acceptedAgain
  exact sameFirst.symm.trans sameSecond

/-- A list of tokens is accepted if and only if the rules derive a program from
its contents. What is read is then the only tree they derive, and its leaves from
left to right are the contents, token by token. -/
theorem readProgram_exact (tokens : List Token) (nextReference : Nat) :
    ((∃ statements, (readProgram tokens nextReference).1 = .ok statements) ↔
        ∃ statements, Program (contents tokens) statements) ∧
      ∀ statements, (readProgram tokens nextReference).1 = .ok statements →
        Program (contents tokens) statements ∧
        (∀ other, Program (contents tokens) other →
          Stmt.listUnnumbered other = Stmt.listUnnumbered statements) ∧
        List.Forall₂ Leaf.Matches (Stmt.listLeaves statements) (contents tokens) := by
  constructor
  · constructor
    · rintro ⟨statements, accepted⟩
      exact ⟨statements, (sound_readProgram accepted).1⟩
    · rintro ⟨statements, derivation⟩
      obtain ⟨read, accepted, _⟩ := complete_readProgram nextReference derivation
      exact ⟨read, accepted⟩
  · intro statements accepted
    have derivation := (sound_readProgram accepted).1
    exact ⟨derivation, fun _ other => other.unique derivation, spells_program derivation⟩

end Lox.Grammar
