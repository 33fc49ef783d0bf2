import Lox.Proofs.Grammar.Contract

/-!
# What reading does to a cursor

Reading moves a cursor along and takes numbers from its supply. A relation that
both of these follow holds between the cursors in front of and behind whatever is
read, also where that fails. So no reference number is ever given out twice, and
an expression leaves the faults reported before it alone.
-/

namespace Lox

/-- A relation that a cursor follows as it moves along and gives out numbers. -/
class Cursor.Passage (related : Cursor → Cursor → Prop) : Prop where
  refl : ∀ cursor, related cursor cursor
  trans : ∀ {before middle after}, related before middle → related middle after →
    related before after
  move : ∀ cursor rest, related cursor { cursor with rest := rest }
  number : ∀ cursor, related cursor { cursor with nextReference := cursor.nextReference + 1 }

/-- A relation that a cursor also follows as faults are reported. -/
class Cursor.FaultyPassage (related : Cursor → Cursor → Prop) : Prop
    extends Cursor.Passage related where
  report : ∀ cursor fault, related cursor { cursor with reported := cursor.reported ++ [fault] }

/-- Numbers are taken from the supply and never given back. -/
def Cursor.Supplied (before after : Cursor) : Prop :=
  before.nextReference ≤ after.nextReference

/-- The closing token stays. -/
def Cursor.SameStop (before after : Cursor) : Prop :=
  after.stop = before.stop

/-- No fault is reported. -/
def Cursor.Unreported (before after : Cursor) : Prop :=
  after.reported = before.reported

instance : Cursor.FaultyPassage Cursor.Supplied where
  refl _ := Nat.le_refl _
  trans := Nat.le_trans
  move _ _ := Nat.le_refl _
  number cursor := Nat.le_succ cursor.nextReference
  report _ _ := Nat.le_refl _

instance : Cursor.FaultyPassage Cursor.SameStop where
  refl _ := rfl
  trans first second := second.trans first
  move _ _ := rfl
  number _ := rfl
  report _ _ := rfl

instance : Cursor.Passage Cursor.Unreported where
  refl _ := rfl
  trans first second := second.trans first
  move _ _ := rfl
  number _ := rfl

/-- The cursor that a step leaves behind, whether it succeeds or fails. -/
def Reading.left {α : Type} (step : Reading α) (before : Cursor) : Cursor :=
  match step before with
  | .ok _ after => after
  | .error _ after => after

/-- A step along which a relation holds. -/
def Reading.Follows {α : Type} (related : Cursor → Cursor → Prop) (step : Reading α) : Prop :=
  ∀ before, related before (step.left before)

open Cursor Reading

variable {related : Cursor → Cursor → Prop}

/-! ## Relations as contracts -/

/-- Keeping to a relation as a contract is following it. -/
theorem Reading.Keeps.follows {α : Type} {step : Reading α}
    (keeps : step.Keeps (.along related)) : step.Follows related := by
  intro before
  have kept := keeps before
  unfold left
  generalize step before = result at kept ⊢
  cases result with
  | ok value after => exact kept
  | error fault after => exact kept

instance [passage : Passage related] : (Contract.along related).Assigns where
  refl := passage.refl
  trans := passage.trans
  behind := passage.trans
  move cursor rest _ := passage.move cursor rest
  number := passage.number
  blame cursor _ := passage.refl cursor
  target _ passed := passage.trans (passage.move _ _) passed

theorem recovers_along [passage : FaultyPassage related] :
    Contract.Recovers (.along related) (.along related) (.along related) where
  inner_part := ⟨id, id⟩
  inner_whole := ⟨id, id⟩
  whole_part := ⟨id, id⟩
  passes_behind passed := passage.trans (passage.move _ _) passed
  fails_behind failed := passage.trans (passage.move _ _) failed
  recover {_ fault after} _ failed :=
    let reported := { after with reported := after.reported ++ [fault] }
    passage.trans (passage.trans failed (passage.report after fault)) (passage.move reported _)

namespace Grammar

/-! ## Whole inputs -/

/-- Reading a program does not fail, because faults are reported. It takes back no
reference number. -/
theorem supplies_program (before : Cursor) :
    ∃ statements after, program before = .ok statements after ∧ before.Supplied after := by
  have recovers : Contract.Recovers (.along Supplied) (.along Supplied) (.along Supplied) :=
    recovers_along
  exact keeps_program recovers before

/-- A program is rejected for what is reported at its end. -/
theorem readProgram_error {tokens : List Token} {nextReference : Nat} {faults : List Diagnostic} :
    (readProgram tokens nextReference).1 = .error faults ↔
      ∃ statements after, program (.ofTokens tokens nextReference) = .ok statements after ∧
        after.reported = faults ∧ faults ≠ [] := by
  obtain ⟨statements, after, ran, -⟩ := supplies_program (.ofTokens tokens nextReference)
  unfold readProgram
  rw [ran]
  cases reported : after.reported with
  | nil => simp [reported]
  | cons first rest =>
      have given : first :: rest = faults → ¬faults = [] := by
        rintro rfl
        exact List.cons_ne_nil first rest
      simpa [reported] using given

/-- A program takes back no reference number, whether it is accepted or not. -/
theorem supplies_readProgram (tokens : List Token) (nextReference : Nat) :
    nextReference ≤ (readProgram tokens nextReference).2 := by
  obtain ⟨statements, after, ran, passed⟩ := supplies_program (.ofTokens tokens nextReference)
  have given : nextReference ≤ after.nextReference := passed
  unfold readProgram
  rw [ran]
  cases reported : after.reported with
  | nil => simpa [reported] using given
  | cons first rest => simpa [reported] using given

theorem follows_onlyExpression [Passage related] : onlyExpression.Follows related :=
  keeps_onlyExpression.follows

/-- Reading an expression takes back no reference number either. -/
theorem supplies_readExpression (tokens : List Token) (nextReference : Nat) :
    nextReference ≤ (readExpression tokens nextReference).2 := by
  have follows : onlyExpression.Follows Supplied := follows_onlyExpression
  have given := follows (.ofTokens tokens nextReference)
  unfold Supplied left at given
  unfold readExpression
  cases ran : onlyExpression (.ofTokens tokens nextReference) <;> rw [ran] at given <;>
    exact given

end Grammar

end Lox
