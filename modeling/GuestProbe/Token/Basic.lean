import GuestProbe.Text.Utf8

/-! # Tokens

A token is a classified piece of an expression: its kind, its precedence, its text and the byte
offset at which it starts. The text of a register is its name, without the dollar sign in front of
it. Token texts are limited to `Token.textLimit` bytes and a `TokenStream` to
`TokenStream.capacity` tokens; the stream carries a proof of its bound.
-/

namespace GuestProbe

/-- What a token is. `dereference` and `negate` are written like `star` and `minus` and told apart
by the token before them. -/
inductive TokenKind where
  | whitespace
  | decimal
  | hexadecimal
  | register
  | symbol
  | or
  | and
  | equal
  | notEqual
  | plus
  | minus
  | star
  | slash
  | not
  | openParen
  | closeParen
  | dereference
  | negate
deriving DecidableEq, Repr

namespace TokenKind

/-- All kinds, in the order of their declaration. -/
def all : List TokenKind :=
  [.whitespace, .decimal, .hexadecimal, .register, .symbol, .or, .and, .equal, .notEqual, .plus,
    .minus, .star, .slash, .not, .openParen, .closeParen, .dereference, .negate]

theorem mem_all (kind : TokenKind) : kind ∈ all := by
  cases kind <;> decide

/-- The name of a kind in messages. -/
def name : TokenKind → String
  | .whitespace => "Whitespace"
  | .decimal => "IntDecimal"
  | .hexadecimal => "IntHex"
  | .register => "Register"
  | .symbol => "Value"
  | .or => "Or"
  | .and => "And"
  | .equal => "Eq"
  | .notEqual => "Neq"
  | .plus => "Plus"
  | .minus => "Minus"
  | .star => "Star"
  | .slash => "Slash"
  | .not => "Not"
  | .openParen => "LParen"
  | .closeParen => "RParen"
  | .dereference => "Dereference"
  | .negate => "Negate"

/-- Finds the kind with a given name. -/
def ofName? (name : String) : Option TokenKind :=
  all.find? (·.name == name)

/-- A token of this kind is a value on its own. -/
def isOperand : TokenKind → Bool
  | .decimal | .hexadecimal | .register | .symbol => true
  | _ => false

/-- A token of this kind is a unary or binary operator. -/
def isOperator : TokenKind → Bool
  | .whitespace | .openParen | .closeParen => false
  | kind => !kind.isOperand

/-- A token of this kind always stands in front of its only operand. -/
def isUnary : TokenKind → Bool
  | .dereference | .negate | .not => true
  | _ => false

/-- How tightly a kind binds; a smaller number binds looser. -/
def precedence : TokenKind → Nat
  | .or => 1
  | .and => 2
  | .equal | .notEqual => 3
  | .plus | .minus => 4
  | .star | .slash => 5
  | .not | .dereference | .negate => 6
  | .openParen | .closeParen => 7
  | .whitespace | .decimal | .hexadecimal | .register | .symbol => 0

end TokenKind

/-- A classified piece of an expression. -/
structure Token where
  kind : TokenKind
  precedence : Nat
  text : String
  offset : Nat
deriving DecidableEq, Repr

namespace Token

/-- The most bytes a token's text may take. -/
def textLimit : Nat := 31

/-- A token whose text is as much of the given one as fits. -/
def ofText (kind : TokenKind) (precedence : Nat) (text : List Char) (offset : Nat) : Token :=
  ⟨kind, precedence, String.ofList (Text.takeBytes textLimit text), offset⟩

/-- The token as it is written in an expression, up to truncation. -/
def display (token : Token) : String :=
  if token.kind = .register then "$" ++ token.text else token.text

end Token

/-- The most tokens a stream may hold. -/
def TokenStream.capacity : Nat := 32

/-- A sequence of tokens of bounded length. -/
structure TokenStream where
  tokens : List Token
  length_le : tokens.length ≤ TokenStream.capacity
deriving DecidableEq

namespace TokenStream

def empty : TokenStream :=
  ⟨[], Nat.zero_le _⟩

/-- Adds a token at the end of a stream that is not full. -/
def push? (stream : TokenStream) (token : Token) : Option TokenStream :=
  if room : stream.tokens.length < capacity then
    some ⟨stream.tokens ++ [token], by rw [List.length_append]; exact room⟩
  else none

theorem push?_eq_some_iff (stream longer : TokenStream) (token : Token) :
    stream.push? token = some longer ↔
      stream.tokens.length < capacity ∧ longer.tokens = stream.tokens ++ [token] := by
  unfold push?
  rcases longer with ⟨tokens, bound⟩
  split
  · next room => simp [room, eq_comm]
  · next full => simp [full]

/-- Fills a stream with tokens, or gives the first one that finds no room. -/
def ofList (tokens : List Token) : Except Token TokenStream :=
  tokens.foldlM (fun stream token => (stream.push? token).elim (.error token) .ok) empty

/-- The tokens as they are written, one space between neighbours. -/
def display (stream : TokenStream) : String :=
  " ".intercalate (stream.tokens.map Token.display)

end TokenStream

end GuestProbe
