import Lox.Evaluation.Machine

/-!
# Operators

What unary and binary operators do to values that are already there. A token
that is no operator of the kind asked for is a fault on its line.
-/

namespace Lox

/-- The operation on numbers behind a token, if it is arithmetic or an order
comparison. Addition is not among them, since it also joins strings. -/
def numericOperation? : Token.Kind → Option (Float → Float → Value)
  | .mark .minus => some fun one other => .number (one - other)
  | .mark .star => some fun one other => .number (one * other)
  | .mark .slash => some fun one other => .number (one / other)
  | .mark .greater => some fun one other => .bool (other < one)
  | .mark .greaterEqual => some fun one other => .bool (other ≤ one)
  | .mark .less => some fun one other => .bool (one < other)
  | .mark .lessEqual => some fun one other => .bool (one ≤ other)
  | _ => none

/-- The sum of two numbers, or two strings joined. -/
def Value.add : Value → Value → Except TypeFault Value
  | .number one, .number other => .ok (.number (one + other))
  | .string one, .string other => .ok (.string (one ++ other))
  | _, _ => .error .operandsNotAddable

/-- A binary operator applied to two values. -/
def Value.binary (kind : Token.Kind) (left right : Value) : Except TypeFault Value :=
  match kind with
  | .mark .plus => left.add right
  | .mark .equalEqual => .ok (.bool (left.equals right))
  | .mark .bangEqual => .ok (.bool (!left.equals right))
  | kind =>
      match numericOperation? kind with
      | none => .error .notBinaryOperator
      | some operation =>
          match left, right with
          | .number one, .number other => .ok (operation one other)
          | _, _ => .error .operandsNotNumbers

/-- A unary operator applied to a value. -/
def Value.unary (kind : Token.Kind) (operand : Value) : Except TypeFault Value :=
  match kind with
  | .mark .minus =>
      match operand with
      | .number amount => .ok (.number (-amount))
      | _ => .error .operandNotNumber
  | .mark .bang => .ok (.bool (!operand.isTruthy))
  | _ => .error .notUnaryOperator

/-- Whether the left operand of a logical operator decides the result alone. A
disjunction stops at the first true operand and anything else at the first false
one. -/
def Value.decides (kind : Token.Kind) (left : Value) : Bool :=
  match kind with
  | .keyword .or => left.isTruthy
  | _ => !left.isTruthy

/-- The result of an operator, with its fault blamed on the operator. -/
def Run.ofOperator (operator : Token) (result : Except TypeFault Value) : Run Value :=
  match result with
  | .ok value => pure value
  | .error fault => Run.fail (.typeAt operator fault)

end Lox
