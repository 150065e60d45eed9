import GuestProbe.Proofs.Expression.Agreement
import GuestProbe.Proofs.Expression.Failure

/-! # Unknown symbols

Where unknown symbols are allowed, an expression has the outcome that it has with a table that knows
every name (`Environment.completed`). Where they are errors, they are the only difference: any other
outcome is the one that the expression has where they are allowed (`lenient_extends_strict`).
-/

namespace GuestProbe

/-- The error says that a symbol is unknown. -/
def ExpressionError.IsUnknownSymbol (error : ExpressionError) : Prop :=
  ∃ name offset, error = .unknownSymbol name offset

namespace Environment

/-- The environment that knows every name: names without a word of their own have the word for
unknown symbols. No symbol is unknown to it, so it need not allow that. -/
def completed (environment : Environment) : Environment :=
  { environment with
    symbol := fun name => some ((environment.symbol name).getD unknownSymbolWord)
    lenient := false }

theorem outcome_operand_completed (environment : Environment) (token : Token) :
    (operand { environment with lenient := true } token).outcome =
      (environment.completed.operand token).outcome := by
  rcases token with ⟨kind, precedence, text, offset⟩
  cases kind with
  | symbol =>
    simp only [operand, completed]
    cases environment.symbol text <;> rfl
  | _ => rfl

theorem agreesUnless_completed (environment : Environment) :
    AgreesUnless (fun _ => False) { environment with lenient := true } environment.completed := by
  constructor
  case operands => exact fun token => .inl (environment.outcome_operand_completed token)
  case reads => exact fun address => .refl ..

/-- An operand that has another word, or another error, where unknown symbols are allowed is an
unknown symbol. -/
theorem agreesUnless_lenient (environment : Environment) :
    AgreesUnless ExpressionError.IsUnknownSymbol { environment with lenient := false }
      { environment with lenient := true } := by
  constructor
  case operands =>
    rintro ⟨kind, precedence, text, offset⟩
    cases kind with
    | symbol =>
      simp only [operand]
      cases environment.symbol text with
      | some word => exact .refl ..
      | none => exact .inr ⟨_, rfl, text, offset, rfl⟩
    | _ => exact .refl ..
  case reads => exact fun address => .refl ..

theorem outcome_operand_lenient_ne (environment : Environment) (token : Token)
    {error : ExpressionError} (unknown : error.IsUnknownSymbol) :
    (operand { environment with lenient := true } token).outcome ≠ .error error := by
  obtain ⟨name, offset, rfl⟩ := unknown
  intro failed
  obtain ⟨-, -, isSymbol⟩ := operand_concerns failed
  simp only [operand, isSymbol] at failed
  cases known : environment.symbol token.text with
  | some word => rw [known] at failed; cases failed
  | none => rw [known] at failed; cases failed

/-- Only an operand fails because a symbol is unknown. -/
theorem FailsAt.operand_of_isUnknownSymbol {environment : Environment} {tokens : List Token}
    {error : ExpressionError} (fails : environment.FailsAt tokens error)
    (unknown : error.IsUnknownSymbol) :
    ∃ token ∈ tokens, (environment.operand token).outcome = .error error := by
  obtain ⟨name, offset, rfl⟩ := unknown
  cases fails with
  | @operand token _ member failed => exact ⟨token, member, failed⟩
  | unary failed =>
    have arises : ExpressionError.ArisesFrom environment [] (.unknownSymbol name offset) :=
      UnaryOperator.meaning_arises failed
    cases arises with
    | token none => cases none
  | binary _ stands failed =>
    obtain ⟨-, -, isSymbol⟩ := BinaryOperator.meaning_concerns stands failed
    rw [isSymbol] at stands
    cases stands

/-- If an expression fails because a symbol is unknown, so does one of its operands. -/
theorem operand_of_evaluate {environment : Environment} {expression : String}
    {error : ExpressionError} (failed : environment.evaluate expression = .error error)
    (unknown : error.IsUnknownSymbol) :
    ∃ token, (environment.operand token).outcome = .error error := by
  obtain ⟨name, offset, rfl⟩ := unknown
  rcases failed_of_bind_eq_error failed with unscanned | ⟨stream, -, unevaluated⟩
  · have scanned := tokenize_cases expression
    rw [unscanned] at scanned
    cases scanned
  · rw [outcome_run] at unevaluated
    split at unevaluated
    · cases unevaluated
    · obtain ⟨token, -, failed⟩ :=
        (value_failsAt unevaluated).operand_of_isUnknownSymbol ⟨name, offset, rfl⟩
      exact ⟨token, failed⟩

end Environment

/-- Where unknown symbols are allowed, an expression has the same outcome as with a table that knows
every name, and never fails because a symbol is unknown. Where they are not allowed, the outcome is
the same or says that a symbol is unknown. -/
theorem lenient_extends_strict (environment : Environment) (expression : String) :
    let lenient := Environment.evaluate { environment with lenient := true } expression
    let strict := Environment.evaluate { environment with lenient := false } expression
    lenient = environment.completed.evaluate expression ∧
      (∀ name offset, lenient ≠ .error (.unknownSymbol name offset)) ∧
      (strict = lenient ∨ ∃ name offset, strict = .error (.unknownSymbol name offset)) := by
  intro lenient strict
  refine ⟨?completed, ?known, ?agrees⟩
  case completed =>
    rcases environment.agreesUnless_completed.evaluate expression with same | ⟨_, -, impossible⟩
    · exact same
    · exact impossible.elim
  case known =>
    intro name offset failed
    have unknown : (ExpressionError.unknownSymbol name offset).IsUnknownSymbol :=
      ⟨name, offset, rfl⟩
    obtain ⟨token, failedToken⟩ := Environment.operand_of_evaluate failed unknown
    exact environment.outcome_operand_lenient_ne token unknown failedToken
  case agrees =>
    rcases environment.agreesUnless_lenient.evaluate expression with
      same | ⟨_, failed, name, offset, rfl⟩
    · exact .inl same
    · exact .inr ⟨name, offset, failed⟩

end GuestProbe
