import GuestProbe.Expression.Environment
import GuestProbe.Expression.Evaluation
import GuestProbe.Proofs.Expression.Grammar

/-! # The meaning of an expression

The meaning of a tree is defined on the tree. Arithmetic is that of the integers, reduced modulo
`2 ^ 32`: words count as natural numbers for sums, differences and products and as signed numbers
for quotients, which are truncated. Operands are evaluated from left to right and the first error
ends the evaluation.

`BinaryOperator.apply_eq_meaning` and `outcome_applyUnary` compare the operators on words with this
meaning, and a derived tree never means a structural error (`Derives.denote_not_isStructural`).
-/

namespace GuestProbe

/-- The word that counts as true or false. -/
def wordOfProp (statement : Prop) [Decidable statement] : UInt32 :=
  if statement then 1 else 0

/-- The meaning of a binary operator that stands at an offset. -/
def BinaryOperator.meaning (operator : BinaryOperator) (offset : Nat) (left right : UInt32) :
    Except ExpressionError UInt32 :=
  match operator with
  | .or => .ok (wordOfProp (left ≠ 0 ∨ right ≠ 0))
  | .and => .ok (wordOfProp (left ≠ 0 ∧ right ≠ 0))
  | .equal => .ok (wordOfProp (left = right))
  | .notEqual => .ok (wordOfProp (left ≠ right))
  | .add => .ok (.ofInt (left.toNat + right.toNat))
  | .subtract => .ok (.ofInt (left.toNat - right.toNat))
  | .multiply => .ok (.ofInt (left.toNat * right.toNat))
  | .divide =>
      if right = 0 then .error (.divisionByZero offset)
      else .ok (.ofInt (left.toInt32.toInt.tdiv right.toInt32.toInt))

/-- The meaning of a unary operator. -/
def UnaryOperator.meaning (environment : Environment) (operator : UnaryOperator) (word : UInt32) :
    Except ExpressionError UInt32 :=
  match operator with
  | .dereference => (environment.memory word 4 .ds).mapError (.memory word)
  | .negate => .ok (.ofInt (-word.toNat))
  | .not => .ok (wordOfProp (word = 0))

/-- The word that a tree stands for, or the first error on the way to it. -/
def SyntaxTree.denote (environment : Environment) : SyntaxTree → Except ExpressionError UInt32
  | .operand token => (environment.operand token).outcome
  | .grouped inner => inner.denote environment
  | .unary operator argument => do
      let word ← argument.denote environment
      operator.meaning environment word
  | .binary operator offset left right => do
      let leftWord ← left.denote environment
      let rightWord ← right.denote environment
      operator.meaning offset leftWord rightWord

/-- The error says that the tokens do not form an expression. -/
def ExpressionError.isStructural : ExpressionError → Bool
  | .missingOperand | .unbalancedParenthesis _ | .missingOperator _ | .notUnary .. |
    .unexpectedToken .. => true
  | _ => false

/-! ## Words as integers -/

theorem ofInt_toNat (word : UInt32) : UInt32.ofInt word.toNat = word := by
  have bound := word.toNat_lt
  have same : ((word.toNat : Int) % 2 ^ 32).toNat = word.toNat := by omega
  rw [UInt32.ofInt, same, UInt32.ofNat_toNat]

theorem ofInt_bmod {modulus : Nat} (size : modulus = UInt32.size) (number : Int) :
    UInt32.ofInt (number.bmod modulus) = UInt32.ofInt number := by
  subst size
  exact congrArg (fun residue : Int => UInt32.ofNat residue.toNat) Int.bmod_emod

/-- The word of a signed number, read as unsigned. -/
theorem ofInt_toInt (number : Int32) : UInt32.ofInt number.toInt = number.toUInt32 := by
  rw [Int32.toInt, BitVec.toInt_eq_toNat_bmod, ofInt_bmod rfl]
  exact ofInt_toNat number.toUInt32

theorem signedQuotient_eq (dividend divisor : UInt32) :
    signedQuotient dividend divisor =
      .ofInt (dividend.toInt32.toInt.tdiv divisor.toInt32.toInt) := by
  rw [signedQuotient, ← ofInt_toInt, Int32.toInt_div, ofInt_bmod rfl]

/-! ## Operators -/

theorem BinaryOperator.apply_eq_meaning (operator : BinaryOperator) (offset : Nat)
    (left right : UInt32) :
    operator.apply offset left right = operator.meaning offset left right := by
  cases operator with
  | or => simp [apply, meaning, truthWord, wordOfProp]
  | and => simp [apply, meaning, truthWord, wordOfProp]
  | equal => simp [apply, meaning, truthWord, wordOfProp]
  | notEqual => simp [apply, meaning, truthWord, wordOfProp]
  | add => simp only [apply, meaning, UInt32.ofInt_add, ofInt_toNat]
  | subtract =>
    simp only [apply, meaning, Int.sub_eq_add_neg, UInt32.ofInt_add, UInt32.ofInt_neg, ofInt_toNat,
      UInt32.sub_eq_add_neg]
  | multiply => simp only [apply, meaning, UInt32.ofInt_mul, ofInt_toNat]
  | divide => simp only [apply, meaning, signedQuotient_eq]

theorem outcome_applyUnary (environment : Environment) (operator : UnaryOperator) (word : UInt32) :
    (environment.applyUnary operator word).outcome = operator.meaning environment word := by
  cases operator with
  | dereference =>
    simp only [Environment.applyUnary, UnaryOperator.meaning, Traced.outcome_bind,
      Traced.outcome_record]
    cases environment.memory word 4 .ds <;> rfl
  | negate =>
    simp only [Environment.applyUnary, UnaryOperator.meaning, Traced.outcome_pure,
      UInt32.ofInt_neg, ofInt_toNat]
  | not => simp [Environment.applyUnary, UnaryOperator.meaning, truthWord, wordOfProp]

/-! ## Events -/

/-- A token on its own records at most that its name stands for the word for unknown symbols. -/
theorem Environment.events_operand (environment : Environment) (token : Token) :
    (environment.operand token).events = [] ∨
      ∃ name, (environment.operand token).events = [.assumed name] := by
  rw [operand]
  split
  case h_1 => exact .inl rfl
  case h_2 => split <;> exact .inl rfl
  case h_3 => split <;> exact .inl rfl
  case h_4 =>
    split
    · exact .inl rfl
    split
    · exact .inr ⟨_, rfl⟩
    · exact .inl rfl
  case h_5 => exact .inl rfl

/-- Only a dereference reads. -/
theorem events_applyUnary (environment : Environment) (operator : UnaryOperator) (word : UInt32) :
    (environment.applyUnary operator word).events =
      if operator = .dereference then [.read word] else [] := by
  cases operator with
  | dereference =>
    rw [Environment.applyUnary, Traced.events_bind]
    cases environment.memory word 4 .ds <;> rfl
  | negate => rfl
  | not => rfl

/-! ## Errors -/

theorem Token.literal_not_isStructural {token : Token} {radix : Nat} {digits : List Char}
    {error : ExpressionError} (failed : token.literal radix digits = .error error) :
    error.isStructural = false := by
  unfold literal at failed
  split at failed
  · cases failed
  · cases failed
    rfl

/-- A token that is an operand fails only for what it names. -/
theorem operand_not_isStructural {environment : Environment} {token : Token}
    {error : ExpressionError} (isOperand : token.kind.isOperand = true)
    (failed : (environment.operand token).outcome = .error error) : error.isStructural = false := by
  rcases token with ⟨kind, precedence, text, offset⟩
  cases kind <;> cases isOperand
  case decimal => exact Token.literal_not_isStructural failed
  case hexadecimal =>
    simp only [Environment.operand] at failed
    split at failed
    · exact Token.literal_not_isStructural failed
    · cases failed
      rfl
  case register =>
    simp only [Environment.operand] at failed
    split at failed
    · cases failed
    · cases failed
      rfl
  case symbol =>
    simp only [Environment.operand] at failed
    split at failed
    · cases failed
    split at failed
    · cases failed
    · cases failed
      rfl

theorem UnaryOperator.meaning_not_isStructural {environment : Environment}
    {operator : UnaryOperator} {word : UInt32} {error : ExpressionError}
    (failed : operator.meaning environment word = .error error) : error.isStructural = false := by
  cases operator with
  | dereference =>
    simp only [meaning] at failed
    cases read : environment.memory word 4 .ds with
    | ok value => rw [read] at failed; cases failed
    | error cause => rw [read] at failed; cases failed; rfl
  | negate => cases failed
  | not => cases failed

theorem BinaryOperator.meaning_not_isStructural {operator : BinaryOperator} {offset : Nat}
    {left right : UInt32} {error : ExpressionError}
    (failed : operator.meaning offset left right = .error error) : error.isStructural = false := by
  cases operator with
  | divide =>
    simp only [meaning] at failed
    split at failed
    · cases failed
      rfl
    · cases failed
  | _ => cases failed

/-- A derived expression fails only for an operand, a division or a memory access. -/
theorem Derives.denote_not_isStructural {environment : Environment} {level : Nat}
    {tokens : List Token} {tree : SyntaxTree} {error : ExpressionError}
    (derivation : Derives level tokens tree) (failed : tree.denote environment = .error error) :
    error.isStructural = false := by
  induction derivation with
  | operand isOperand => exact operand_not_isStructural isOperand failed
  | grouped _ _ _ ih => exact ih failed
  | unary _ _ ih =>
    rcases failed_of_bind_eq_error failed with inner | ⟨_, -, applied⟩
    · exact ih inner
    · exact UnaryOperator.meaning_not_isStructural applied
  | binary _ _ _ ihLeft ihRight =>
    rcases failed_of_bind_eq_error failed with before | ⟨_, -, failed⟩
    · exact ihLeft before
    rcases failed_of_bind_eq_error failed with after | ⟨_, -, applied⟩
    · exact ihRight after
    · exact BinaryOperator.meaning_not_isStructural applied
  | looser _ ih => exact ih failed

end GuestProbe
