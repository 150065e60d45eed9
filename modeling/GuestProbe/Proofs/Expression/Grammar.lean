import GuestProbe.Expression.Operator
import GuestProbe.Proofs.Expression.Splitting

/-! # The grammar of expressions

The grammar is stratified. Levels 1 to 5 belong to the binary operators, from `||` to `*` and `/`,
and every binary operator associates to the left. Level 6 adds the prefix operators, and level 7
holds what needs no operator: an operand or an expression in parentheses. A whole expression is a
derivation at level 1.

`Derives` has one constructor for each kind of production, and writes every operator with a kind of
token of its own. Derived sequences are not empty and
balanced, and all of their exposed operators belong to the level of the derivation or to a tighter
one (`Derives.level_le_of_exposed`).
-/

namespace GuestProbe

/-- An expression with its structure made explicit. -/
inductive SyntaxTree where
  | operand (token : Token)
  | grouped (inner : SyntaxTree)
  | unary (operator : UnaryOperator) (argument : SyntaxTree)
  /-- The offset is that of the operator. -/
  | binary (operator : BinaryOperator) (offset : Nat) (left right : SyntaxTree)
deriving DecidableEq, Repr

/-- The level of the grammar that a binary operator belongs to. -/
def BinaryOperator.level : BinaryOperator → Nat
  | .or => 1
  | .and => 2
  | .equal | .notEqual => 3
  | .add | .subtract => 4
  | .multiply | .divide => 5

/-- The kind of the tokens that the grammar writes a prefix operator with. -/
def UnaryOperator.kind : UnaryOperator → TokenKind
  | .dereference => .dereference
  | .negate => .negate
  | .not => .not

/-- The kind of the tokens that the grammar writes a binary operator with. -/
def BinaryOperator.kind : BinaryOperator → TokenKind
  | .or => .or
  | .and => .and
  | .equal => .equal
  | .notEqual => .notEqual
  | .add => .plus
  | .subtract => .minus
  | .multiply => .star
  | .divide => .slash

/-- A sequence of tokens derives at a level, with the tree of the derivation. -/
inductive Derives : Nat → List Token → SyntaxTree → Prop where
  | operand {token : Token} (isOperand : token.kind.isOperand = true) :
      Derives 7 [token] (.operand token)
  | grouped {opening closing : Token} {tokens : List Token} {inner : SyntaxTree}
      (opens : opening.kind = .openParen) (closes : closing.kind = .closeParen)
      (inside : Derives 1 tokens inner) :
      Derives 7 (opening :: tokens ++ [closing]) (.grouped inner)
  | unary {token : Token} {operator : UnaryOperator} {tokens : List Token} {argument : SyntaxTree}
      (stands : token.kind = operator.kind) (applied : Derives 6 tokens argument) :
      Derives 6 (token :: tokens) (.unary operator argument)
  | binary {token : Token} {operator : BinaryOperator} {before after : List Token}
      {left right : SyntaxTree} (stands : token.kind = operator.kind)
      (derivedLeft : Derives operator.level before left)
      (derivedRight : Derives (operator.level + 1) after right) :
      Derives operator.level (before ++ token :: after) (.binary operator token.offset left right)
  | looser {level : Nat} {tokens : List Token} {tree : SyntaxTree}
      (tighter : Derives (level + 1) tokens tree) : Derives level tokens tree

/-- The token has the precedence of its kind. -/
def Token.Ranked (token : Token) : Prop :=
  token.precedence = token.kind.precedence

instance (token : Token) : Decidable token.Ranked :=
  inferInstanceAs (Decidable (_ = _))

/-! ## Kinds of tokens as operators -/

namespace TokenKind

/-- The kinds that are evaluated as a prefix operator are those of the grammar. -/
theorem unaryOperator?_eq_some_iff {kind : TokenKind} {operator : UnaryOperator} :
    kind.unaryOperator? = some operator ↔ kind = operator.kind := by
  cases kind <;> cases operator <;> simp [unaryOperator?, UnaryOperator.kind]

/-- The kinds that are evaluated as a binary operator are those of the grammar. -/
theorem binaryOperator?_eq_some_iff {kind : TokenKind} {operator : BinaryOperator} :
    kind.binaryOperator? = some operator ↔ kind = operator.kind := by
  cases kind <;> cases operator <;> simp [binaryOperator?, BinaryOperator.kind]

theorem of_unaryOperator? {kind : TokenKind} {operator : UnaryOperator}
    (stands : kind.unaryOperator? = some operator) :
    kind.isOperator = true ∧ kind.isUnary = true ∧ kind.precedence = 6 ∧ kind ≠ .openParen ∧
      kind ≠ .closeParen := by
  cases kind <;> cases stands <;> decide

theorem of_binaryOperator? {kind : TokenKind} {operator : BinaryOperator}
    (stands : kind.binaryOperator? = some operator) :
    kind.isOperator = true ∧ kind.isUnary = false ∧ kind.precedence = operator.level ∧
      kind ≠ .openParen ∧ kind ≠ .closeParen := by
  cases kind <;> cases stands <;> decide

theorem of_isOperand {kind : TokenKind} (isOperand : kind.isOperand = true) :
    kind.isOperator = false ∧ kind ≠ .openParen ∧ kind ≠ .closeParen := by
  cases kind <;> cases isOperand <;> decide

/-- An operator is a dereference if its token is. -/
theorem eq_dereference_iff {kind : TokenKind} {operator : UnaryOperator}
    (stands : kind.unaryOperator? = some operator) :
    kind = .dereference ↔ operator = .dereference := by
  have same := @unaryOperator?_eq_some_iff kind .dereference
  rw [stands, Option.some.injEq] at same
  exact same.symm

theorem ne_dereference_of_binaryOperator? {kind : TokenKind} {operator : BinaryOperator}
    (stands : kind.binaryOperator? = some operator) : kind ≠ .dereference := by
  rintro rfl
  cases stands

theorem ne_dereference_of_isOperand {kind : TokenKind} (isOperand : kind.isOperand = true) :
    kind ≠ .dereference := by
  rintro rfl
  cases isOperand

/-- Every operator is a unary or a binary one. -/
theorem exists_of_isOperator {kind : TokenKind} (isOperator : kind.isOperator = true) :
    (∃ operator, kind.unaryOperator? = some operator) ∨
      ∃ operator, kind.binaryOperator? = some operator := by
  cases kind <;> cases isOperator <;> simp [unaryOperator?, binaryOperator?]

theorem not_paren_of_isOperator {kind : TokenKind} (isOperator : kind.isOperator = true) :
    kind ≠ .openParen ∧ kind ≠ .closeParen := by
  cases kind <;> cases isOperator <;> decide

theorem precedence_pos_of_isOperator {kind : TokenKind} (isOperator : kind.isOperator = true) :
    1 ≤ kind.precedence := by
  cases kind <;> cases isOperator <;> decide

theorem precedence_of_isUnary {kind : TokenKind} (isUnary : kind.isUnary = true) :
    kind.precedence = 6 := by
  cases kind <;> cases isUnary <;> rfl

end TokenKind

/-- The exposed operators of ranked tokens belong to levels of the grammar. -/
theorem precedence_pos_of_exposed {tokens : List Token}
    (ranked : ∀ token ∈ tokens, token.Ranked) {operator : Token} {index : Nat}
    (exposed : (operator, index) ∈ exposedOperators tokens) : 1 ≤ operator.precedence := by
  obtain ⟨found, isOperator, -⟩ := (mem_exposedOperators_iff ..).mp exposed
  rw [ranked operator (List.mem_of_getElem? found)]
  exact TokenKind.precedence_pos_of_isOperator isOperator

theorem BinaryOperator.level_le (operator : BinaryOperator) : operator.level ≤ 5 := by
  cases operator <;> decide

/-! ## Derivations -/

namespace Derives

variable {level : Nat} {tokens : List Token} {tree : SyntaxTree}

/-- What derives at a level derives at every looser one. -/
theorem loosen {tight : Nat} (derivation : Derives tight tokens tree) (le : level ≤ tight) :
    Derives level tokens tree := by
  obtain ⟨distance, rfl⟩ := Nat.exists_eq_add_of_le le
  induction distance with
  | zero => exact derivation
  | succ distance ih => exact ih (.looser derivation) (Nat.le_add_right ..)

theorem ne_nil (derivation : Derives level tokens tree) : tokens ≠ [] := by
  induction derivation with
  | looser _ ih => exact ih
  | _ => simp

theorem isBalanced (derivation : Derives level tokens tree) : isBalanced tokens = true := by
  induction derivation with
  | operand isOperand =>
    obtain ⟨-, notOpen, notClose⟩ := TokenKind.of_isOperand isOperand
    exact (isBalanced_cons_iff notOpen notClose []).mpr rfl
  | grouped opens closes _ ih => exact isBalanced_grouped opens closes ih
  | unary stands _ ih =>
    have evaluated := TokenKind.unaryOperator?_eq_some_iff.mpr stands
    obtain ⟨-, -, -, notOpen, notClose⟩ := TokenKind.of_unaryOperator? evaluated
    exact (isBalanced_cons_iff notOpen notClose _).mpr ih
  | binary stands _ _ ihLeft ihRight =>
    have evaluated := TokenKind.binaryOperator?_eq_some_iff.mpr stands
    obtain ⟨-, -, -, notOpen, notClose⟩ := TokenKind.of_binaryOperator? evaluated
    exact (isBalanced_append_iff ihLeft _).mpr
      ((isBalanced_cons_iff notOpen notClose _).mpr ihRight)
  | looser _ ih => exact ih

/-- No operator outside all parentheses of a derived sequence belongs to a looser level. -/
theorem level_le_of_exposed (derivation : Derives level tokens tree)
    (ranked : ∀ token ∈ tokens, token.Ranked) {operator : Token} {index : Nat}
    (exposed : (operator, index) ∈ exposedOperators tokens) : level ≤ operator.precedence := by
  induction derivation generalizing index with
  | @operand token isOperand =>
    obtain ⟨notOperator, notOpen, notClose⟩ := TokenKind.of_isOperand isOperand
    rcases (mem_exposedOperators_cons_iff notOpen notClose rfl ..).mp exposed with
      ⟨-, -, isOperator⟩ | ⟨_, -, none⟩
    · rw [notOperator] at isOperator
      cases isOperator
    · cases none
  | grouped opens closes inside =>
    rw [exposedOperators_grouped opens closes inside.isBalanced] at exposed
    cases exposed
  | @unary token _ rest _ stands applied ih =>
    have evaluated := TokenKind.unaryOperator?_eq_some_iff.mpr stands
    obtain ⟨-, -, precedence, notOpen, notClose⟩ := TokenKind.of_unaryOperator? evaluated
    rcases (mem_exposedOperators_cons_iff notOpen notClose applied.isBalanced ..).mp exposed with
      ⟨rfl, -, -⟩ | ⟨_, -, later⟩
    · have own := ranked operator List.mem_cons_self
      rw [Token.Ranked, precedence] at own
      omega
    · exact ih (fun token member => ranked token (List.mem_cons_of_mem _ member)) later
  | @binary token binary before after _ _ stands derivedLeft derivedRight ihLeft ihRight =>
    have evaluated := TokenKind.binaryOperator?_eq_some_iff.mpr stands
    obtain ⟨-, -, precedence, notOpen, notClose⟩ := TokenKind.of_binaryOperator? evaluated
    have balancedAfter := derivedRight.isBalanced
    have balancedRest := (isBalanced_cons_iff notOpen notClose after).mpr balancedAfter
    rcases (mem_exposedOperators_append_iff derivedLeft.isBalanced balancedRest ..).mp exposed with
      earlier | ⟨_, -, rest⟩
    · exact ihLeft (fun token member => ranked token (List.mem_append_left _ member)) earlier
    rcases (mem_exposedOperators_cons_iff notOpen notClose balancedAfter ..).mp rest with
      ⟨rfl, -, -⟩ | ⟨_, -, later⟩
    · have own := ranked operator (by simp)
      rw [Token.Ranked, precedence] at own
      omega
    · have bound := ihRight (fun token member => ranked token (by simp [member])) later
      omega
  | looser _ ih =>
    have bound := ih ranked exposed
    omega

end Derives

end GuestProbe
