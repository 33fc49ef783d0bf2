import Lox.Evaluation.Operators

/-!
# Values without functions

Literals and results of operators hold no functions, so nothing that is known
about functions has to be checked of them.
-/

namespace Lox

/-- A value that holds no function. -/
def Value.IsPlain : Value → Prop
  | .function _ | .cls _ | .object _ => False
  | .nil | .bool _ | .number _ | .string _ | .native _ => True

variable {kind : Token.Kind} {result : Value}

theorem isPlain_literal (literal : Literal) : literal.value.IsPlain := by
  cases literal <;> trivial

theorem isPlain_numericOperation {operation : Float → Float → Value}
    (known : numericOperation? kind = some operation) (one other : Float) :
    (operation one other).IsPlain := by
  unfold numericOperation? at known
  split at known <;> cases known <;> trivial

theorem isPlain_unary {operand : Value} (computed : operand.unary kind = .ok result) :
    result.IsPlain := by
  unfold Value.unary at computed
  split at computed
  · split at computed
    · cases computed
      trivial
    · cases computed
  · cases computed
    trivial
  · cases computed

theorem isPlain_binary {left right : Value} (computed : left.binary kind right = .ok result) :
    result.IsPlain := by
  unfold Value.binary at computed
  split at computed
  · unfold Value.add at computed
    split at computed
    · cases computed
      trivial
    · cases computed
      trivial
    · cases computed
  · cases computed
    trivial
  · cases computed
    trivial
  · split at computed
    · cases computed
    · next operation known =>
        split at computed
        · cases computed
          exact isPlain_numericOperation known _ _
        · cases computed

end Lox
