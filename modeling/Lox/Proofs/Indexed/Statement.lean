import Lox.Proofs.Grammar.Contract
import Lox.Proofs.Indexed.Expression

/-!
# Statements by index

The productions of statements, and recovery from a fault. Recovery looks behind the index,
at the token passed over last. There is one, because a declaration is only read where a
token is left, and either that one has been passed over or recovery does so first.
-/

namespace Lox.Indexed

open Reading (accept accepts)
open Grammar (Position startsStatement fromBoundary synchronized)

variable {limit length steps most bound : Nat} {reader : Reader} {cursor : Cursor}

/-! ## Going on after a fault -/

/-- The place of a boundary is found in as many steps as there are tokens. -/
theorem toBoundary_ends {last : Token} (passed : previous reader = .ok last reader)
    (tracks : Tracks limit reader cursor) (within : cursor.rest.length < steps) :
    ∃ after, toBoundary steps reader = .ok () after ∧
      Tracks limit after { cursor with rest := fromBoundary last cursor.rest } := by
  obtain ⟨rest, stop, next, reported⟩ := cursor
  induction rest generalizing reader steps last with
  | nil =>
      obtain - | steps := steps
      · simp at within
      refine ⟨reader, ?_, tracks⟩
      rw [toBoundary, bind_of_ok (isAtEnd_eq tracks)]
      rfl
  | cons token rest ih =>
      obtain - | steps := steps
      · simp at within
      rw [toBoundary, bind_of_ok (isAtEnd_eq tracks)]
      simp only [List.isEmpty_cons, Bool.false_eq_true, if_false]
      rw [bind_of_ok passed, fromBoundary]
      by_cases ended : last.kind = .mark .semicolon
      · rw [if_pos ended, if_pos (.inl ended)]
        exact ⟨reader, rfl, tracks⟩
      have looked : peek reader = .ok token reader := peek_eq tracks
      rw [if_neg ended, bind_of_ok looked]
      by_cases starts : startsStatement token.kind = true
      · rw [if_pos starts, if_pos (.inr starts)]
        exact ⟨reader, rfl, tracks⟩
      rw [if_neg starts, if_neg (not_or.mpr ⟨ended, starts⟩), bind_of_ok (advance_eq tracks rfl)]
      exact ih (previous_moved tracks) (tracks.moved rfl) (by simpa using within)

theorem synchronize_ends (tracks : Tracks limit reader cursor) (passed : 0 < limit)
    (within : cursor.rest.length < most) :
    ∃ after, synchronize most reader = .ok () after ∧
      Tracks limit after { cursor with rest := synchronized cursor.rest } := by
  cases shape : cursor.rest with
  | nil =>
      have placed := tracks.place
      rw [shape, List.length_nil] at placed
      obtain ⟨index, here⟩ : ∃ index, reader.index = index + 1 :=
        Nat.exists_eq_add_one_of_ne_zero (by omega)
      have present : index < reader.tokens.length := by
        have := (List.getElem?_eq_some_iff.mp tracks.at_index).1
        omega
      have last : previous reader = .ok reader.tokens[index] reader := by
        rw [previous, bind_of_ok (rfl : (get : Stepping Reader) reader = .ok reader reader), here]
        exact tokenAt_of_some (List.getElem?_eq_getElem present)
      have advanced : advance reader = .ok reader.tokens[index] reader := by
        rw [advance, bind_of_ok (isAtEnd_eq tracks), shape]
        exact last
      rw [synchronize, bind_of_ok advanced]
      obtain ⟨after, ran, tracksOn⟩ := toBoundary_ends last tracks within
      rw [shape] at tracksOn
      exact ⟨after, ran, tracksOn⟩
  | cons token rest =>
      rw [shape, List.length_cons] at within
      rw [synchronize, bind_of_ok (advance_eq tracks shape)]
      have last := previous_moved tracks
      rw [Cursor.peek, shape] at last
      exact toBoundary_ends last (tracks.moved shape) (Nat.lt_of_succ_lt within)

/-- Recovery passes over the token at fault, or nothing is left at all. -/
theorem recovering_ends {declaration : Stepping Stmt} {reading : Reading Stmt}
    (simulates : Simulates limit length 1 declaration reading) (within : length ≤ most)
    (tracks : Tracks limit reader cursor) (fits : cursor.rest.length < length)
    (present : cursor.rest ≠ []) :
    Ends limit cursor.rest.length 1 (recovering declaration most reader)
      (Grammar.recovering reading cursor) := by
  have some : 0 < cursor.rest.length := List.length_pos_of_ne_nil present
  have placed := tracks.place
  have ran := simulates tracks fits
  unfold recovering Grammar.recovering
  generalize declaration reader = result at ran
  generalize reading cursor = outcome at ran
  cases ran with
  | ok tracks used => exact .ok tracks used
  | @fault diagnostic middle found tracks used =>
      have reports : Tracks limit
          { middle with reported := middle.reported ++ [diagnostic] }
          { found with reported := found.reported ++ [diagnostic] } :=
        { tracks with reported := congrArg (· ++ [diagnostic]) tracks.reported }
      obtain ⟨after, synchronizes, goesOn⟩ :=
        synchronize_ends reports (by omega) (show found.rest.length < most by omega)
      dsimp only
      rw [bind_of_ok synchronizes]
      refine .ok goesOn ?_
      have fewer := (Grammar.synchronized_suffix found.rest).length_le
      rw [List.length_tail] at fewer
      change (synchronized found.rest).length + 1 ≤ cursor.rest.length
      omega

/-- A look at the next token, which passes over nothing. -/
def Looks (closing : Stepping Bool) (test : Reading Bool) : Prop :=
  ∀ {limit reader cursor}, Tracks limit reader cursor →
    ∃ answer, closing reader = .ok answer reader ∧ test cursor = .ok answer cursor

theorem looks_check (kind : Token.Kind) : Looks (check kind) (Reading.sees kind) :=
  fun tracks => ⟨_, check_eq tracks, Reading.sees_eq⟩

theorem looks_never : Looks (pure false) (pure false) :=
  fun _ => ⟨false, rfl, rfl⟩

/-- A list that ends where something closes it or where nothing is left. -/
theorem simulates_unlessClosed {α : Type} {closing : Stepping Bool} {test : Reading Bool}
    {body : Stepping (List α)} {further : Reading (List α)} (looks : Looks closing test)
    (goesOn : ∀ ⦃reader cursor⦄, Tracks limit reader cursor → cursor.rest.length < length →
      cursor.rest ≠ [] → Ends limit cursor.rest.length 0 (body reader) (further cursor)) :
    Simulates limit length 0
      (do
        if ← closing then return []
        else if ← isAtEnd then return []
        else body)
      (do
        if (← Reading.isAtEnd) || (← test) then return []
        else further) := by
  intro reader cursor tracks fits
  obtain ⟨closed, looked, tested⟩ := looks tracks
  rw [bind_of_ok looked, Reading.bind_of_ok (Reading.isAtEnd_ok.mpr ⟨rfl, rfl⟩),
    Reading.bind_of_ok tested]
  cases closed with
  | true =>
      simp only [Bool.or_true, if_true]
      exact .ok tracks (Nat.le_refl _)
  | false =>
      simp only [Bool.or_false, Bool.false_eq_true, if_false]
      rw [bind_of_ok (isAtEnd_eq tracks)]
      cases shape : cursor.rest with
      | nil => exact .ok tracks (by simp [shape])
      | cons token rest =>
          rw [← shape]
          have present : cursor.rest ≠ [] := by simp [shape]
          simpa [present] using goesOn tracks fits present

theorem simulates_declarationsUntil {closing : Stepping Bool} {test : Reading Bool}
    {declaration : Stepping Stmt} {reading : Reading Stmt} (looks : Looks closing test)
    (simulates : Simulates limit length 1 declaration reading) (within : length ≤ most)
    (count : Nat) (fits : count ≤ length) (among : count ≤ steps) (enough : count ≤ bound + 1) :
    Simulates limit count 0 (declarationsUntil closing declaration most steps)
      (Grammar.declarationsUntil test reading bound) := by
  induction count generalizing steps bound with
  | zero => exact simulates_nothing
  | succ count ih =>
      obtain - | steps := steps
      · omega
      have covered (bound : Nat) (enough : count ≤ bound + 1) :
          Simulates limit (count + 1) 0 (declarationsUntil closing declaration most (steps + 1))
            (Grammar.declarationsUntil test reading (bound + 1)) := by
        refine simulates_unlessClosed looks ?_
        intro reader cursor tracks left present
        have first := recovering_ends simulates within tracks (by omega) present
        refine first.bind left ?_
        intro first
        exact (ih (by omega) (by omega) (by omega)).bind fun _ => .pure _
      obtain - | bound := bound
      · obtain rfl : count = 0 := by omega
        refine (covered 0 (by omega)).at_end ?_
        intro reader cursor tracks ended
        obtain ⟨answer, -, tested⟩ := looks tracks
        rw [Grammar.declarationsUntil, Grammar.declarationsUntil,
          Reading.bind_of_ok (Reading.isAtEnd_ok.mpr ⟨rfl, rfl⟩), Reading.bind_of_ok tested]
        simp [ended]
      · exact covered bound (by omega)

/-! ## Parts with an expression -/

section Parts

variable (within : length ≤ most) (enough : length ≤ bound + 1)
include within enough

theorem simulates_expressionUnless (kind : Token.Kind) :
    Simulates limit length 0 (expressionUnless kind most)
      (Grammar.expressionUnless kind bound) := by
  refine (simulates_check kind).bind ?_
  intro absent
  apply Simulates.ite
  · exact .pure _
  · refine (simulates_expression ?_ ?_).bind ?_
    · omega
    · omega
    · exact fun _ => .pure _

theorem simulates_initialValue :
    Simulates limit length 0 (initialValue most) (Grammar.initialValue bound) := by
  apply simulates_takes
  · refine (simulates_expression ?_ ?_).bind ?_
    · omega
    · omega
    · exact fun _ => .pure _
  · exact .pure _

theorem simulates_variableDeclaration :
    Simulates limit length 1 (variableDeclaration most) (Grammar.variableDeclaration bound) := by
  refine (simulates_consume _ _).bind ?_
  intro name
  refine (simulates_initialValue ?_ ?_).bind ?_
  · omega
  · omega
  intro initializer
  exact (simulates_consume _ _).bind fun _ => .pure _

/-- An expression with a token behind it. -/
theorem simulates_closed (build : Expr → Stmt) (kind : Token.Kind) (fault : SyntaxFault) :
    Simulates limit length 1
      (do
        let value ← expression most
        let _ ← consume kind fault
        return build value)
      (do
        let value ← Grammar.expression bound
        let _ ← Reading.expect kind fault
        return build value) := by
  refine (simulates_expression within enough).bind ?_
  intro value
  exact (simulates_consume _ _).bind fun _ => .pure _

theorem simulates_forInitializer :
    Simulates limit length 1 (forInitializer most) (Grammar.forInitializer bound) := by
  apply simulates_takes
  · exact .pure _
  apply simulates_takes
  · refine (simulates_variableDeclaration ?_ ?_).bind ?_
    · omega
    · omega
    · exact fun _ => .pure _
  · exact (simulates_closed within enough _ _ _).bind fun _ => .pure _

end Parts

theorem simulates_superclass : Simulates limit length 0 superclass Grammar.superclass := by
  apply simulates_takes
  · refine (simulates_consume _ _).bind ?_
    intro name
    exact (simulates_refer name).bind fun _ => .pure _
  · exact .pure _

/-! ## Parts with statements inside -/

section Nested

variable {nested : Position → Stepping Stmt} {inner : Position → Reading Stmt}
variable (nests : ∀ position, Simulates limit length 1 (nested position) (inner position))
variable (within : length < most) (enough : length ≤ bound)
include nests within enough

theorem simulates_block (count : Nat) (fits : count ≤ length) :
    Simulates limit count 1 (block nested most) (Grammar.block inner bound) := by
  refine (simulates_declarationsUntil (looks_check _) (nests .declaration) ?_ _ fits ?_ ?_).bind ?_
  · omega
  · omega
  · omega
  intro body
  exact (simulates_consume _ _).bind fun _ => .pure _

theorem simulates_function (form : FunctionForm) (count : Nat) (fits : count ≤ length) :
    Simulates limit count 1 (function nested most form) (Grammar.function inner bound form) := by
  refine (simulates_consume _ _).bind ?_
  intro name
  refine (simulates_consume _ _).bind ?_
  intro _
  refine (simulates_items (simulates_consume _ _) ?_ ?_).bind ?_
  · omega
  · omega
  intro parameters
  refine (simulates_consume _ _).bind ?_
  intro _
  refine (simulates_consume _ _).bind ?_
  intro _
  refine (simulates_block nests within enough _ ?_).bind ?_
  · omega
  · exact fun _ => .pure _

theorem simulates_methods (count : Nat) (fits : count ≤ length) (among : count ≤ steps)
    {left : Nat} (sufficient : count ≤ left) :
    Simulates limit count 0 (methods (function nested most .method) steps)
      (Grammar.methods (Grammar.function inner bound .method) left) := by
  induction count generalizing steps left with
  | zero => exact simulates_nothing
  | succ count ih =>
      obtain - | steps := steps
      · omega
      obtain - | left := left
      · omega
      refine simulates_unlessClosed (looks_check _) ?_
      intro reader cursor tracks shorter present
      refine Ends.bind (simulates_function nests within enough _ _ fits tracks shorter) shorter ?_
      intro first
      exact (ih (by omega) (by omega) (by omega)).bind fun _ => .pure _

theorem simulates_classDeclaration :
    Simulates limit length 1 (classDeclaration nested most)
      (Grammar.classDeclaration inner bound) := by
  refine (simulates_consume _ _).bind ?_
  intro name
  refine simulates_superclass.bind ?_
  intro superclass
  refine (simulates_consume _ _).bind ?_
  intro _
  refine (simulates_methods nests within enough _ ?_ ?_ ?_).bind ?_
  · omega
  · omega
  · omega
  intro members
  exact (simulates_consume _ _).bind fun _ => .pure _

omit within enough in
theorem simulates_alternative (count : Nat) (fits : count ≤ length) :
    Simulates limit count 0 (alternative nested) (Grammar.alternative inner) := by
  apply simulates_takes
  · exact ((nests .statement).shorter (by omega)).bind fun _ => .pure _
  · exact .pure _

theorem simulates_conditional :
    Simulates limit length 1 (conditional nested most) (Grammar.conditional inner bound) := by
  refine (simulates_consume _ _).bind ?_
  intro _
  refine (simulates_expression ?_ ?_).bind ?_
  · omega
  · omega
  intro condition
  refine (simulates_consume _ _).bind ?_
  intro _
  refine ((nests .statement).shorter (by omega)).bind ?_
  intro consequent
  exact (simulates_alternative nests _ (by omega)).bind fun _ => .pure _

theorem simulates_whileLoop :
    Simulates limit length 1 (whileLoop nested most) (Grammar.whileLoop inner bound) := by
  refine (simulates_consume _ _).bind ?_
  intro _
  refine (simulates_expression ?_ ?_).bind ?_
  · omega
  · omega
  intro condition
  refine (simulates_consume _ _).bind ?_
  intro _
  exact ((nests .statement).shorter (by omega)).bind fun _ => .pure _

theorem simulates_forLoop :
    Simulates limit length 1 (forLoop nested most) (Grammar.forLoop inner bound) := by
  refine (simulates_consume _ _).bind ?_
  intro _
  refine (simulates_forInitializer ?_ ?_).bind ?_
  · omega
  · omega
  intro initializer
  refine (simulates_expressionUnless ?_ ?_ _).bind ?_
  · omega
  · omega
  intro condition
  refine (simulates_consume _ _).bind ?_
  intro _
  refine (simulates_expressionUnless ?_ ?_ _).bind ?_
  · omega
  · omega
  intro increment
  refine (simulates_consume _ _).bind ?_
  intro _
  exact ((nests .statement).shorter (by omega)).bind fun _ => .pure _

/-! ### The choice between statements -/

omit nests within enough in
/-- The keywords that start a plain statement, looked for one after another. -/
theorem plainStatement_eq {cursor : Cursor} (closing : cursor.stop.kind = .stop) :
    Grammar.plainStatement inner bound cursor = (do
      if ← accepts (.keyword .for) then Grammar.forLoop inner bound
      else if ← accepts (.keyword .if) then Grammar.conditional inner bound
      else if ← accepts (.keyword .while) then Grammar.whileLoop inner bound
      else
        match ← accept (.keyword .return) with
        | some keyword => Grammar.returnStatement keyword bound
        | none =>
            if ← accepts (.mark .leftBrace) then
              return .block (← Grammar.block inner bound)
            else if ← accepts (.keyword .print) then Grammar.printStatement bound
            else Grammar.expressionStatement bound) cursor := by
  refine eq_of_kinds ?_ ?_ closing
  · exact fun _ _ _ _ => rfl
  · intro kind _ _ _ _ _ _
    cases kind with
    | mark mark => cases mark <;> rfl
    | keyword keyword => cases keyword <;> rfl
    | _ => rfl

omit nests within enough in
/-- The keywords that start a declaration, looked for one after another. -/
theorem declaration_eq {cursor : Cursor} (closing : cursor.stop.kind = .stop) :
    Grammar.declaration inner bound cursor = (do
      if ← accepts (.keyword .class) then Grammar.classDeclaration inner bound
      else if ← accepts (.keyword .fun) then
        return .function (← Grammar.function inner bound .function)
      else if ← accepts (.keyword .var) then Grammar.variableDeclaration bound
      else Grammar.plainStatement inner bound) cursor := by
  refine eq_of_kinds ?_ ?_ closing
  · exact fun _ _ _ _ => rfl
  · intro kind _ _ _ _ _ _
    cases kind with
    | mark mark => cases mark <;> rfl
    | keyword keyword => cases keyword <;> rfl
    | _ => rfl

theorem simulates_plainStatement :
    Simulates limit (length + 1) 1 (plainStatement nested most)
      (Grammar.plainStatement inner bound) := by
  refine Simulates.congr ?_ fun _ => plainStatement_eq
  apply simulates_takes
  · exact (simulates_forLoop nests within enough).anyhow
  apply simulates_takes
  · exact (simulates_conditional nests within enough).anyhow
  apply simulates_takes
  · exact (simulates_whileLoop nests within enough).anyhow
  refine (decides_takes _).simulates ?_ ?_
  · intro keyword
    refine (simulates_expressionUnless ?_ ?_ _).bind ?_
    · omega
    · omega
    intro value
    exact (simulates_consume _ _).bind fun _ => .pure _
  apply simulates_takes
  · exact (simulates_block nests within enough _ (Nat.le_refl _)).bind fun _ => .pure _
  apply simulates_takes
  · exact (simulates_closed (by omega) (by omega) _ _ _).anyhow
  · refine simulates_closed ?_ ?_ _ _ _
    · omega
    · omega

theorem simulates_declaration :
    Simulates limit (length + 1) 1 (declaration nested most)
      (Grammar.declaration inner bound) := by
  refine Simulates.congr ?_ fun _ => declaration_eq
  apply simulates_takes
  · exact (simulates_classDeclaration nests within enough).anyhow
  apply simulates_takes
  · exact (simulates_function nests within enough _ _ (Nat.le_refl _)).bind fun _ => .pure _
  apply simulates_takes
  · refine (simulates_variableDeclaration ?_ ?_).anyhow
    · omega
    · omega
  · exact simulates_plainStatement nests within enough

end Nested

/-! ## Whole statements -/

/-- Without any tokens there is no statement, whatever the bound. -/
theorem statement_at_end (bound : Nat) (position : Position) {cursor : Cursor}
    (ended : cursor.rest = []) (closing : cursor.stop.kind = .stop) :
    Grammar.statement bound position cursor = Reading.fail .expression cursor := by
  cases bound with
  | zero => rfl
  | succ bound =>
      have first : cursor.peek.kind = .stop := by simp [Cursor.peek, ended, closing]
      have plain : Grammar.plainStatement (Grammar.statement bound) (bound + 1) cursor =
          Reading.fail .expression cursor := by
        rw [Grammar.plainStatement, Reading.bind_of_ok (Reading.peek_ok.mpr ⟨rfl, rfl⟩), first]
        exact Reading.bind_of_error (expression_at_end (bound + 1) ended closing)
      cases position with
      | statement => exact plain
      | declaration =>
          rw [Grammar.statement, Grammar.declaration,
            Reading.bind_of_ok (Reading.peek_ok.mpr ⟨rfl, rfl⟩), first]
          exact plain

/-- A statement takes at least one token, and so as many steps as there are tokens are
enough for it. -/
theorem simulates_statement (within : length ≤ steps) (enough : length ≤ bound + 1)
    (position : Position) :
    Simulates limit length 1 (statement steps position) (Grammar.statement bound position) := by
  induction length generalizing steps bound position with
  | zero => exact simulates_nothing
  | succ length ih =>
      obtain - | steps := steps
      · omega
      have covered (bound : Nat) (enough : length ≤ bound + 1) :
          Simulates limit (length + 1) 1 (statement (steps + 1) position)
            (Grammar.statement (bound + 1) position) := by
        have nests (position : Position) : Simulates limit length 1 (statement steps position)
            (Grammar.statement bound position) := ih (by omega) (by omega) position
        cases position with
        | declaration => exact simulates_declaration nests (by omega) (by omega)
        | statement => exact simulates_plainStatement nests (by omega) (by omega)
      obtain - | bound := bound
      · obtain rfl : length = 0 := by omega
        refine (covered 0 (by omega)).at_end ?_
        intro reader cursor tracks ended
        exact (statement_at_end 1 position ended tracks.closing).symm
      · exact covered bound (by omega)

end Lox.Indexed
