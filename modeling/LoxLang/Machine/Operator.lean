import LoxLang.Machine.Fault
import LoxLang.Value

/-!
# Operators

What operators give on values. The operator is a token kind: any kind may stand in a tree, and those
that are no operator are faults.
-/

namespace LoxLang

/-- What a prefix operator gives. -/
def applyUnary (operator : Kind) (operand : Value) : Except RuntimeFault Value :=
  match operator with
  | .symbol .minus =>
    match operand with
    | .number value => .ok (.number (-value))
    | _ => .error .operandNotNumber
  | .symbol .bang => .ok (.bool (!operand.isTruthy))
  | _ => .error .invalidUnaryOperator

/-- The sum of two numbers, or two strings joined. -/
def addValues : Value → Value → Except RuntimeFault Value
  | .number left, .number right => .ok (.number (left + right))
  | .string left, .string right => .ok (.string (left ++ right))
  | _, _ => .error .operandsNotAddable

/-- What an operation on two numbers gives. -/
def onNumbers (operation : Float → Float → Value) : Value → Value → Except RuntimeFault Value
  | .number left, .number right => .ok (operation left right)
  | _, _ => .error .operandsNotNumbers

/-- What a binary operator gives. -/
def applyBinary (operator : Kind) (left right : Value) : Except RuntimeFault Value :=
  match operator with
  | .symbol .plus => addValues left right
  | .symbol .minus => onNumbers (fun a b => .number (a - b)) left right
  | .symbol .star => onNumbers (fun a b => .number (a * b)) left right
  | .symbol .slash => onNumbers (fun a b => .number (a / b)) left right
  | .symbol .greater => onNumbers (fun a b => .bool (b < a)) left right
  | .symbol .greaterEqual => onNumbers (fun a b => .bool (b ≤ a)) left right
  | .symbol .less => onNumbers (fun a b => .bool (a < b)) left right
  | .symbol .lessEqual => onNumbers (fun a b => .bool (a ≤ b)) left right
  | .symbol .equalEqual => .ok (.bool (left.same right))
  | .symbol .bangEqual => .ok (.bool (!left.same right))
  | _ => .error .invalidBinaryOperator

/-- Whether the left side alone decides a logical operator: a true one decides `or`, a false one
every other. -/
def leftDecides (operator : Kind) (left : Value) : Bool :=
  if operator = .keyword .orWord then left.isTruthy else !left.isTruthy

end LoxLang
