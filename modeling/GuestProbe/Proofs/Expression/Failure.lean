import GuestProbe.Proofs.Expression.Reduction
import GuestProbe.Proofs.Expression.Tokens

/-! # Why evaluations fail

An evaluation fails at an operand, at an operator or for want of one of them
(`Environment.value_failsAt`). Apart from a missing operand, the failure is due either to a token,
which the error then describes, or to a word that could not be read from the memory
(`Environment.outcome_run_arises`). An expression fails for one of these reasons or because it
cannot be cut into tokens (`Environment.evaluate_arises`).
-/

namespace GuestProbe

/-- The error describes the token: it has the token's offset, it repeats the token's text if it
repeats any, and the token is of a kind for which it can arise. -/
def ExpressionError.Concerns (error : ExpressionError) (token : Token) : Prop :=
  match error with
  | .unbalancedParenthesis offset =>
      token.offset = offset ∧ (token.kind = .openParen ∨ token.kind = .closeParen)
  | .missingOperator offset => token.offset = offset
  | .notUnary text offset => token.offset = offset ∧ token.display = text
  | .unexpectedToken text offset => token.offset = offset ∧ token.display = text
  | .invalidLiteral text offset =>
      token.offset = offset ∧ token.text = text ∧
        (token.kind = .decimal ∨ token.kind = .hexadecimal)
  | .unknownRegister name offset =>
      token.offset = offset ∧ token.text = name ∧ token.kind = .register
  | .unknownSymbol name offset =>
      token.offset = offset ∧ token.text = name ∧ token.kind = .symbol
  | .divisionByZero offset => token.offset = offset ∧ token.kind = .slash
  | .noMatch .. | .tooManyTokens _ | .missingOperand | .memory .. => False

/-- Where an error of the evaluation of some tokens comes from. -/
inductive ExpressionError.ArisesFrom (environment : Environment) (tokens : List Token) :
    ExpressionError → Prop where
  | absence : ArisesFrom environment tokens .missingOperand
  | token {token : Token} {error : ExpressionError} (member : token ∈ tokens)
      (concerns : error.Concerns token) : ArisesFrom environment tokens error
  | memory {address : UInt32} {cause : MemoryError}
      (unread : environment.memory address 4 .ds = .error cause) :
      ArisesFrom environment tokens (.memory address cause)

open ExpressionError

/-- The step at which the evaluation of some tokens fails. -/
inductive Environment.FailsAt (environment : Environment) (tokens : List Token) :
    ExpressionError → Prop where
  | absence : FailsAt environment tokens .missingOperand
  | operand {token : Token} {error : ExpressionError} (member : token ∈ tokens)
      (failed : (environment.operand token).outcome = .error error) :
      FailsAt environment tokens error
  | operatorless {token : Token} (member : token ∈ tokens) :
      FailsAt environment tokens (.missingOperator token.offset)
  | notUnary {token : Token} (member : token ∈ tokens) :
      FailsAt environment tokens (.notUnary token.display token.offset)
  | unexpected {token : Token} (member : token ∈ tokens) :
      FailsAt environment tokens (.unexpectedToken token.display token.offset)
  | unary {operator : UnaryOperator} {word : UInt32} {error : ExpressionError}
      (failed : operator.meaning environment word = .error error) :
      FailsAt environment tokens error
  | binary {token : Token} {operator : BinaryOperator} {left right : UInt32}
      {error : ExpressionError} (member : token ∈ tokens)
      (stands : token.kind.binaryOperator? = some operator)
      (failed : operator.meaning token.offset left right = .error error) :
      FailsAt environment tokens error

theorem Environment.FailsAt.mono {environment : Environment} {part tokens : List Token}
    {error : ExpressionError} (fails : environment.FailsAt part error)
    (within : ∀ token ∈ part, token ∈ tokens) : environment.FailsAt tokens error := by
  cases fails with
  | absence => exact .absence
  | operand member failed => exact .operand (within _ member) failed
  | operatorless member => exact .operatorless (within _ member)
  | notUnary member => exact .notUnary (within _ member)
  | unexpected member => exact .unexpected (within _ member)
  | unary failed => exact .unary failed
  | binary member stands failed => exact .binary (within _ member) stands failed

/-! ## Operands and operators -/

theorem Token.literal_concerns {token : Token} {radix : Nat} {digits : List Char}
    {error : ExpressionError} (isNumber : token.kind = .decimal ∨ token.kind = .hexadecimal)
    (failed : token.literal radix digits = .error error) : error.Concerns token := by
  unfold literal at failed
  split at failed
  · cases failed
  · cases failed
    exact ⟨rfl, rfl, isNumber⟩

theorem Environment.operand_concerns {environment : Environment} {token : Token}
    {error : ExpressionError} (failed : (environment.operand token).outcome = .error error) :
    error.Concerns token := by
  unfold operand at failed
  split at failed
  case h_1 isDecimal => exact Token.literal_concerns (.inl isDecimal) failed
  case h_2 isHexadecimal =>
    split at failed
    · exact Token.literal_concerns (.inr isHexadecimal) failed
    · cases failed
      exact ⟨rfl, rfl, .inr isHexadecimal⟩
  case h_3 isRegister =>
    split at failed
    · cases failed
    · cases failed
      exact ⟨rfl, rfl, isRegister⟩
  case h_4 isSymbol =>
    split at failed
    · cases failed
    split at failed
    · cases failed
    · cases failed
      exact ⟨rfl, rfl, isSymbol⟩
  case h_5 =>
    cases failed
    exact ⟨rfl, rfl⟩

theorem UnaryOperator.meaning_arises {environment : Environment} {operator : UnaryOperator}
    {word : UInt32} {tokens : List Token} {error : ExpressionError}
    (failed : operator.meaning environment word = .error error) :
    error.ArisesFrom environment tokens := by
  cases operator with
  | dereference =>
    simp only [meaning] at failed
    cases read : environment.memory word 4 .ds with
    | ok value => rw [read] at failed; cases failed
    | error cause => rw [read] at failed; cases failed; exact .memory read
  | negate => cases failed
  | not => cases failed

theorem BinaryOperator.meaning_concerns {operator : BinaryOperator} {token : Token}
    {left right : UInt32} {error : ExpressionError}
    (stands : token.kind.binaryOperator? = some operator)
    (failed : operator.meaning token.offset left right = .error error) : error.Concerns token := by
  cases operator with
  | divide =>
    have isSlash : token.kind = .slash := by
      cases kind : token.kind <;> rw [kind] at stands <;> cases stands
    simp only [meaning] at failed
    split at failed
    · cases failed
      exact ⟨rfl, isSlash⟩
    · cases failed
  | _ => cases failed

/-! ## Sequences -/

/-- A parenthesis without a partner is among the tokens or was open before them. -/
theorem mem_of_unpairedAfter? {pending : List Nat} {tokens : List Token} {offset : Nat}
    (unpaired : unpairedAfter? pending tokens = some offset) :
    offset ∈ pending ∨ ∃ token ∈ tokens, (unbalancedParenthesis offset).Concerns token := by
  induction tokens generalizing pending with
  | nil => exact .inl (List.mem_of_head? unpaired)
  | cons token rest ih =>
    have later (found : ∃ token ∈ rest, (unbalancedParenthesis offset).Concerns token) :
        ∃ other ∈ token :: rest, (unbalancedParenthesis offset).Concerns other := by
      obtain ⟨other, member, concerns⟩ := found
      exact ⟨other, List.mem_cons_of_mem _ member, concerns⟩
    simp only [unpairedAfter?] at unpaired
    split at unpaired
    case h_1 opens =>
      rcases ih unpaired with pendingNow | found
      · rcases List.mem_cons.mp pendingNow with rfl | before
        · exact .inr ⟨token, List.mem_cons_self, rfl, .inl opens⟩
        · exact .inl before
      · exact .inr (later found)
    case h_2 closes =>
      cases unpaired
      exact .inr ⟨token, List.mem_cons_self, rfl, .inr closes⟩
    case h_3 =>
      rcases ih unpaired with outer | found
      · exact .inl (List.mem_cons_of_mem _ outer)
      · exact .inr (later found)
    case h_4 =>
      rcases ih unpaired with before | found
      · exact .inl before
      · exact .inr (later found)

namespace Environment

/-- Every failure of a sequence is one of its steps. -/
theorem value_failsAt {environment : Environment} {tokens : List Token} {error : ExpressionError}
    (failed : environment.value tokens = .error error) : environment.FailsAt tokens error := by
  induction tokens using division_induction generalizing error with
  | step tokens parts =>
    have fits := divide_fits tokens
    have within : ∀ part ∈ (divide tokens).parts, ∀ error, environment.value part = .error error →
        environment.FailsAt tokens error := fun part member error failed =>
      (parts part member failed).mono fun token among => mem_of_mem_parts member among
    rw [value_eq] at failed
    cases divided : divide tokens with
    | nothing =>
      rw [divided] at failed
      cases failed
      exact .absence
    | single token =>
      rw [divided] at failed fits
      exact .operand (fits ▸ List.mem_cons_self) failed
    | enclosed interior =>
      rw [divided] at failed within
      exact within interior List.mem_cons_self error failed
    | operatorless first =>
      rw [divided] at failed
      cases failed
      exact .operatorless (List.mem_of_head? (head?_of_divide_operatorless divided))
    | leading first rest =>
      rw [divided] at failed fits within
      have member : first ∈ tokens := fits.1 ▸ List.mem_cons_self
      simp only [valueOfParts] at failed
      cases stands : first.kind.unaryOperator? with
      | none =>
        rw [stands] at failed
        cases failed
        exact .notUnary member
      | some unary =>
        rw [stands] at failed
        rcases failed_of_bind_eq_error failed with inner | ⟨_, -, applied⟩
        · exact within rest List.mem_cons_self error inner
        · exact .unary applied
    | around left operator right =>
      rw [divided] at failed fits within
      have member : operator ∈ tokens := by simp [fits.1]
      rcases failed_of_bind_eq_error failed with before | ⟨_, -, failed⟩
      · exact within left List.mem_cons_self error before
      rcases failed_of_bind_eq_error failed with after | ⟨_, -, failed⟩
      · exact within right (by simp [Division.parts]) error after
      cases stands : operator.kind.binaryOperator? with
      | none =>
        simp only [stands] at failed
        cases failed
        exact .unexpected member
      | some binary =>
        simp only [stands] at failed
        exact .binary member stands failed

theorem value_arises {environment : Environment} {tokens : List Token} {error : ExpressionError}
    (failed : environment.value tokens = .error error) : error.ArisesFrom environment tokens := by
  cases value_failsAt failed with
  | absence => exact .absence
  | operand member failed => exact .token member (operand_concerns failed)
  | operatorless member => exact .token member rfl
  | notUnary member => exact .token member ⟨rfl, rfl⟩
  | unexpected member => exact .token member ⟨rfl, rfl⟩
  | unary failed => exact UnaryOperator.meaning_arises failed
  | binary member stands failed =>
    exact .token member (BinaryOperator.meaning_concerns stands failed)

/-- Every failure of a whole evaluation comes from a missing operand, a token or the memory. -/
theorem outcome_run_arises {environment : Environment} {tokens : List Token}
    {error : ExpressionError} (failed : (environment.run tokens).outcome = .error error) :
    error.ArisesFrom environment tokens := by
  rw [outcome_run] at failed
  cases unpaired : unpaired? tokens with
  | none =>
    rw [unpaired] at failed
    exact value_arises failed
  | some offset =>
    rw [unpaired] at failed
    cases failed
    rcases mem_of_unpairedAfter? unpaired with none | ⟨token, member, concerns⟩
    · cases none
    · exact .token member concerns

theorem evaluate_arises {environment : Environment} {expression : String} {error : ExpressionError}
    (failed : environment.evaluate expression = .error error) :
    tokenize expression = .error error ∨ ∃ stream, tokenize expression = .ok stream ∧
      error.ArisesFrom environment stream.resolveUnary.tokens := by
  rcases failed_of_bind_eq_error failed with unscanned | ⟨stream, scanned, unevaluated⟩
  · exact .inl unscanned
  · exact .inr ⟨stream, scanned, outcome_run_arises unevaluated⟩

/-- A memory error is one of the memory. -/
theorem memory_of_evaluate {environment : Environment} {expression : String} {address : UInt32}
    {cause : MemoryError} (failed : environment.evaluate expression = .error (.memory address cause)) :
    environment.memory address 4 .ds = .error cause := by
  rcases evaluate_arises failed with unscanned | ⟨_, -, arises⟩
  · have scanned := tokenize_cases expression
    rw [unscanned] at scanned
    cases scanned
  · cases arises with
    | token _ concerns => cases concerns
    | memory unread => exact unread

end Environment

end GuestProbe
