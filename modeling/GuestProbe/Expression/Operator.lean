import GuestProbe.Expression.Error

/-! # Operators on words

Arithmetic wraps at 32 bits. Division treats both operands as signed numbers and rounds toward
zero. Comparisons and logical operators give 1 for true and 0 for false.
-/

namespace GuestProbe

/-- An operator in front of its operand. -/
inductive UnaryOperator where
  | dereference
  | negate
  | not
deriving DecidableEq, Repr

/-- An operator between its operands. -/
inductive BinaryOperator where
  | or
  | and
  | equal
  | notEqual
  | add
  | subtract
  | multiply
  | divide
deriving DecidableEq, Repr

/-- The unary operator that a kind of token stands for. -/
def TokenKind.unaryOperator? : TokenKind → Option UnaryOperator
  | .dereference => some .dereference
  | .negate => some .negate
  | .not => some .not
  | _ => none

/-- The binary operator that a kind of token stands for. -/
def TokenKind.binaryOperator? : TokenKind → Option BinaryOperator
  | .or => some .or
  | .and => some .and
  | .equal => some .equal
  | .notEqual => some .notEqual
  | .plus => some .add
  | .minus => some .subtract
  | .star => some .multiply
  | .slash => some .divide
  | _ => none

/-- The word for a truth value. -/
def truthWord (holds : Bool) : UInt32 :=
  if holds then 1 else 0

/-- The signed quotient of two words, rounded toward zero; the least number divided by -1 is
itself. -/
def signedQuotient (dividend divisor : UInt32) : UInt32 :=
  (dividend.toInt32 / divisor.toInt32).toUInt32

/-- Applies a binary operator that stands at the given offset. -/
def BinaryOperator.apply (operator : BinaryOperator) (offset : Nat) (left right : UInt32) :
    Except ExpressionError UInt32 :=
  match operator with
  | .or => .ok (truthWord (left != 0 || right != 0))
  | .and => .ok (truthWord (left != 0 && right != 0))
  | .equal => .ok (truthWord (left == right))
  | .notEqual => .ok (truthWord (left != right))
  | .add => .ok (left + right)
  | .subtract => .ok (left - right)
  | .multiply => .ok (left * right)
  | .divide => if right = 0 then .error (.divisionByZero offset)
      else .ok (signedQuotient left right)

end GuestProbe
