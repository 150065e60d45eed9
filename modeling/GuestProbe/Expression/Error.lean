import GuestProbe.Memory.Error
import GuestProbe.Token.Basic

/-! # Expression errors

Every way in which an expression can fail is a constructor that holds the facts of the failure.
Offsets are byte offsets into the expression; `ExpressionError.offset?` is the place to point at.
-/

namespace GuestProbe

inductive ExpressionError where
  /-- No token rule matches the remaining text, which starts at the offset. -/
  | noMatch (offset : Nat) (remaining : String)
  /-- The token at the offset is one more than a stream holds. -/
  | tooManyTokens (offset : Nat)
  /-- An operator lacks an operand, or there is no expression at all. -/
  | missingOperand
  /-- The parenthesis at the offset has no partner. -/
  | unbalancedParenthesis (offset : Nat)
  /-- Operands follow each other without an operator, from the offset on. -/
  | missingOperator (offset : Nat)
  /-- A token stands where only a unary operator can. -/
  | notUnary (token : String) (offset : Nat)
  /-- A token stands where only an operand can. -/
  | unexpectedToken (token : String) (offset : Nat)
  /-- A number does not fit into a word. -/
  | invalidLiteral (text : String) (offset : Nat)
  | unknownRegister (name : String) (offset : Nat)
  | unknownSymbol (name : String) (offset : Nat)
  /-- The right operand of the division at the offset is zero. -/
  | divisionByZero (offset : Nat)
  /-- Reading the word at the address failed. -/
  | memory (address : UInt32) (error : MemoryError)
deriving DecidableEq, Repr

namespace ExpressionError

/-- The offset that an error refers to, if it refers to one. -/
def offset? : ExpressionError → Option Nat
  | .noMatch offset _ => some offset
  | .tooManyTokens offset => some offset
  | .missingOperand => none
  | .unbalancedParenthesis offset => some offset
  | .missingOperator offset => some offset
  | .notUnary _ offset => some offset
  | .unexpectedToken _ offset => some offset
  | .invalidLiteral _ offset => some offset
  | .unknownRegister _ offset => some offset
  | .unknownSymbol _ offset => some offset
  | .divisionByZero offset => some offset
  | .memory _ _ => none

/-- The expression could not be cut into tokens. -/
def isLexical : ExpressionError → Bool
  | .noMatch .. | .tooManyTokens _ => true
  | _ => false

/-- The memory error behind an expression error, if there is one. -/
def cause? : ExpressionError → Option MemoryError
  | .memory _ error => some error
  | _ => none

def message : ExpressionError → String
  | .noMatch offset remaining =>
      "no match at position " ++ Text.decimalText offset ++ ": '" ++ remaining ++ "'"
  | .tooManyTokens offset =>
      "expression too long (more than " ++ Text.decimalText TokenStream.capacity ++
        " tokens at position " ++ Text.decimalText offset ++ ")"
  | .missingOperand => "missing operand"
  | .unbalancedParenthesis offset =>
      "unbalanced parenthesis at position " ++ Text.decimalText offset
  | .missingOperator offset =>
      "expected an operator in expression starting at position " ++ Text.decimalText offset
  | .notUnary token _ => "'" ++ token ++ "' is not a unary operator"
  | .unexpectedToken token _ => "unexpected '" ++ token ++ "'"
  | .invalidLiteral text _ => "invalid number '" ++ text ++ "'"
  | .unknownRegister name _ => "unknown register '$" ++ name ++ "'"
  | .unknownSymbol name _ => "no symbol '" ++ name ++ "' in current context"
  | .divisionByZero _ => "division by zero"
  | .memory address error =>
      "cannot dereference " ++ Text.wideHexText address ++ ": " ++ error.message

end ExpressionError

end GuestProbe
