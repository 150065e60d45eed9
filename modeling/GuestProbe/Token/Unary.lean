import GuestProbe.Log
import GuestProbe.Text.Numeral
import GuestProbe.Token.Basic

/-! # Unary operators

A `*` or `-` is a dereference or a negation when it starts the expression or follows a token that
cannot end an operand, and a binary operator otherwise. The tokens are decided from left to right,
each by the token before it as already decided.
-/

namespace GuestProbe

/-- The unary operator that is written like a binary one. -/
def TokenKind.unaryForm? : TokenKind → Option TokenKind
  | .star => some .dereference
  | .minus => some .negate
  | _ => none

/-- A token of this kind can be the last one of an operand. -/
def TokenKind.endsOperand (kind : TokenKind) : Bool :=
  kind.isOperand || kind == .closeParen

/-- Decides a token by the kind of the token before it. -/
def Token.resolveUnary (token : Token) (previous : Option TokenKind) : Token :=
  match token.kind.unaryForm? with
  | some kind =>
      if previous.any TokenKind.endsOperand then token
      else { token with kind, precedence := kind.precedence }
  | none => token

/-- Decides the tokens that follow a token of the given kind. -/
def resolveUnaryAfter : Option TokenKind → List Token → List Token
  | _, [] => []
  | previous, token :: rest =>
      let resolved := token.resolveUnary previous
      resolved :: resolveUnaryAfter (some resolved.kind) rest

theorem length_resolveUnaryAfter (previous : Option TokenKind) (tokens : List Token) :
    (resolveUnaryAfter previous tokens).length = tokens.length := by
  induction tokens generalizing previous with
  | nil => rfl
  | cons token rest ih => simp [resolveUnaryAfter, ih]

namespace TokenStream

/-- Tells unary operators from binary ones in a whole stream. -/
def resolveUnary (stream : TokenStream) : TokenStream :=
  ⟨resolveUnaryAfter none stream.tokens, by
    rw [length_resolveUnaryAfter]; exact stream.length_le⟩

/-- The indices of the tokens that turn out to be unary operators, with the decided tokens. -/
def unaryTokens (stream : TokenStream) : List (Nat × Token) :=
  (stream.tokens.zip stream.resolveUnary.tokens).zipIdx.filterMap fun ((token, resolved), index) =>
    if token.kind = resolved.kind then none else some (index, resolved)

/-- The log records of telling unary operators from binary ones. -/
def unaryLog (stream : TokenStream) : List LogRecord :=
  stream.unaryTokens.map fun (index, token) =>
    ⟨.trace, "token " ++ Text.decimalText index ++ " at position " ++
      Text.decimalText token.offset ++ " is " ++ token.kind.name⟩

end TokenStream

end GuestProbe
