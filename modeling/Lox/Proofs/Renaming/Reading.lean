import Lox.Proofs.Renaming.Accepted
import Lox.Proofs.Renaming.Text
import Lox.Proofs.Session.Joining

/-!
# Reading renamed programs

A renamed program is what its text holds, up to the numbers of uses of names, and has as
many of these as the program that it was made from, in the same order.
-/

namespace Lox

variable {respelling : Respelling} {rule : Respelling.Rule} {marks : Marks}

/-! ## Numbers -/

mutual

theorem Expr.numbers_rename :
    (value : Expr) → (value.rename respelling marks).numbers = value.numbers
  | .literal _ | .variable _ | .this _ | .super _ _ => rfl
  | .grouping inner => inner.numbers_rename
  | .unary _ operand => operand.numbers_rename
  | .binary left _ right | .logical left _ right => by
      rw [Expr.rename, Expr.numbers, Expr.numbers, left.numbers_rename, right.numbers_rename]
  | .assign _ value => by
      rw [Expr.rename, Expr.numbers, Expr.numbers, value.numbers_rename]
      rfl
  | .call callee _ arguments => by
      rw [Expr.rename, Expr.numbers, Expr.numbers, callee.numbers_rename,
        Expr.listNumbers_rename arguments]
  | .get object _ => object.numbers_rename
  | .set object _ value => by
      rw [Expr.rename, Expr.numbers, Expr.numbers, object.numbers_rename, value.numbers_rename]

theorem Expr.listNumbers_rename : (values : List Expr) →
    Expr.listNumbers (Expr.listRename respelling marks values) = Expr.listNumbers values
  | [] => rfl
  | first :: rest => by
      rw [Expr.listRename, Expr.listNumbers, Expr.listNumbers, first.numbers_rename,
        Expr.listNumbers_rename rest]

end

theorem Expr.optionNumbers_rename (value : Option Expr) :
    Expr.optionNumbers (value.map (Expr.rename respelling marks)) = Expr.optionNumbers value := by
  cases value with
  | none => rfl
  | some value => exact value.numbers_rename

mutual

/-- Renaming keeps the numbers of a statement. -/
theorem Stmt.Renames.numbers {marks : Marks} {statement statement' : Stmt} :
    statement.Renames respelling rule marks statement' → statement'.numbers = statement.numbers
  | .expression _ | .print _ => Expr.numbers_rename _
  | .var _ _ | .returning _ => Expr.optionNumbers_rename _
  | .block _ _ parts => parts.numbers
  | .conditional _ second third => by
      rw [Stmt.numbers, Stmt.numbers, Expr.numbers_rename, second.numbers, third.numbers]
  | .whileLoop _ second => by
      rw [Stmt.numbers, Stmt.numbers, Expr.numbers_rename, second.numbers]
  | .forLoop first _ _ fourth => by
      rw [Stmt.numbers, Stmt.numbers, first.numbers, Expr.optionNumbers_rename,
        Expr.optionNumbers_rename, fourth.numbers]
  | .function _ parts => parts.numbers
  | .classDecl _ _ parts => by
      rw [Stmt.numbers, Stmt.numbers, Expr.optionNumbers_rename, parts.numbers]

theorem Stmt.ListRenames.numbers {marks : Marks} {body body' : List Stmt} :
    Stmt.ListRenames respelling rule marks body body' →
      Stmt.listNumbers body' = Stmt.listNumbers body
  | .nil => rfl
  | .cons head tail => by
      rw [Stmt.listNumbers, Stmt.listNumbers, head.numbers, tail.numbers]

theorem Stmt.OptionRenames.numbers {marks : Marks} {statement statement' : Option Stmt} :
    Stmt.OptionRenames respelling rule marks statement statement' →
      Stmt.optionNumbers statement' = Stmt.optionNumbers statement
  | .none => rfl
  | .some parts => parts.numbers

theorem FunctionDecl.Renames.numbers {marks : Marks} {declaration declaration' : FunctionDecl} :
    declaration.Renames respelling rule marks declaration' →
      declaration'.numbers = declaration.numbers
  | .intro _ _ _ parts => parts.numbers

theorem FunctionDecl.ListRenames.numbers {marks : Marks} {methods methods' : List FunctionDecl} :
    FunctionDecl.ListRenames respelling rule marks methods methods' →
      FunctionDecl.listNumbers methods' = FunctionDecl.listNumbers methods
  | .nil => rfl
  | .cons head tail => by
      rw [FunctionDecl.listNumbers, FunctionDecl.listNumbers, head.numbers, tail.numbers]

end

/-! ## Texts -/

variable {source : String} {next : Nat} {program program' : List Stmt}

/-- The rules derive the program of a text from its tokens. -/
theorem program_of_read (read : (readProgram source next).1 = .ok program) :
    Grammar.Program (words source) program := by
  have derivation := (Grammar.sound_readProgram (readProgram_ok_iff.mp read).2).1
  rwa [contents_scan] at derivation

/-- A name that is no token of a text is no token of its program. -/
theorem unused_of_read (read : (readProgram source next).1 = .ok program)
    (absent : ∀ token ∈ (scan source).1, token.lexeme ≠ respelling.new) :
    respelling.Unused (Stmt.listLeaves program) := by
  have spelled := Grammar.spells_program (program_of_read read)
  have absent : ∀ token ∈ words source, token.lexeme ≠ respelling.new := by
    rw [scan_tokens] at absent
    exact fun token inside => absent token (List.mem_append_left _ inside)
  generalize Stmt.listLeaves program = leaves, words source = tokens at spelled absent
  induction spelled with
  | nil => exact Respelling.unused_nil
  | @cons leaf token _ _ matched _ ih =>
      obtain ⟨first, later⟩ := List.forall_mem_cons.mp absent
      cases leaf with
      | kept expected =>
          obtain rfl : token = expected := matched
          exact Respelling.unused_kept.mpr ⟨first, ih later⟩
      | word kind => exact Respelling.unused_word.mpr (ih later)

/-- A renamed program has a text, which differs from that of the program in the renamed
identifiers only. -/
theorem exists_renamed_text (names : respelling.Identifiers)
    (read : (readProgram source next).1 = .ok program)
    (renames : Stmt.ListRenames respelling rule marks program program') :
    ∃ source', respelling.Text source source' ∧ ∃ read', (readProgram source' next).1 = .ok read' ∧
      Stmt.listUnnumbered read' = Stmt.listUnnumbered program' := by
  obtain ⟨tokens', renamed, derivation⟩ := Grammar.respells_program (program_of_read read) renames
  obtain ⟨source', text, clean, rfl⟩ := exists_text names (readProgram_ok_iff.mp read).1 renamed
  rw [← contents_scan] at derivation
  obtain ⟨read', accepted, same⟩ := Grammar.complete_readProgram next derivation
  exact ⟨source', text, read', readProgram_ok_iff.mpr ⟨clean, accepted⟩, same⟩

end Lox
