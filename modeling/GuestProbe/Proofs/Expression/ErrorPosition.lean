import GuestProbe.Expression.Report
import GuestProbe.Proofs.Expression.Failure

/-! # Where errors point

The offset of an error is a character boundary before the end of the expression, and the expression
continues there with what the error is about (`evaluate_error_position`). So the caret of a report
stands below the first character of that text.
-/

namespace GuestProbe

open Text

namespace Text

/-- The bytes of a string are those of its characters. -/
theorem byteLength_toList (text : String) : byteLength text.toList = text.utf8ByteSize := by
  obtain ⟨characters, rfl⟩ : ∃ characters, text = String.ofList characters :=
    ⟨text.toList, String.ofList_toList.symm⟩
  rw [String.toList_ofList]
  induction characters with
  | nil => rfl
  | cons first rest ih =>
    rw [byteLength_cons, ih, String.ofList_cons, String.utf8ByteSize_append,
      String.utf8ByteSize_singleton]

/-- The column of a caret below a character is the number of characters before it. -/
theorem caretColumn_of_append {expression : String} {before rest : List Char}
    (split : expression.toList = before ++ rest) :
    caretColumn expression (byteLength before) = before.length := by
  rw [caretColumn, split, splitBytes?_byteLength]

end Text

/-- What an error says about the expression from its offset on, which is the given text. -/
def ExpressionError.PointsTo (error : ExpressionError) (expression : String) (rest : List Char) :
    Prop :=
  match error with
  | .noMatch _ remaining => remaining.toList = rest
  | .tooManyTokens offset => ∃ token,
      (expressionTokens expression)[TokenStream.capacity]? = some token ∧ token.offset = offset
  | .missingOperator offset => ∃ token ∈ expressionTokens expression, token.offset = offset
  | .notUnary token _ => token.toList <+: rest
  | .unexpectedToken token _ => token.toList <+: rest
  | .invalidLiteral text _ => text.toList <+: rest
  | .unknownSymbol name _ => name.toList <+: rest
  | .unknownRegister name _ => '$' :: name.toList <+: rest
  | .divisionByZero _ => rest.head? = some '/'
  | .unbalancedParenthesis _ => rest.head? = some '(' ∨ rest.head? = some ')'
  | .missingOperand | .memory .. => False

namespace Token.Heads

variable {token : Token} {text : List Char}

theorem head?_of_sign (heads : token.Heads text) {sign : Char}
    (stands : token.kind.sign? = some [sign]) : text.head? = some sign := by
  obtain ⟨rest, rfl⟩ := heads.sign [sign] stands
  rfl

/-- The text of a token that is no register is displayed as it is. -/
theorem text_isPrefix (heads : token.Heads text) (notRegister : token.kind ≠ .register) :
    token.text.toList <+: text := by
  have display := heads.display
  rwa [Token.display, if_neg notRegister] at display

theorem name_isPrefix (heads : token.Heads text) (isRegister : token.kind = .register) :
    '$' :: token.text.toList <+: text := by
  have display := heads.display
  rwa [Token.toList_display, TokenKind.written, if_pos isRegister] at display

/-- An error that concerns the token at the start of a text points to that text. -/
theorem pointsTo (heads : token.Heads text) {error : ExpressionError} {expression : String}
    (concerns : error.Concerns token)
    (listed : ∃ original ∈ expressionTokens expression, original.offset = token.offset) :
    error.offset? = some token.offset ∧ error.PointsTo expression text := by
  cases error with
  | unbalancedParenthesis offset =>
    obtain ⟨rfl, opens | closes⟩ := concerns
    · exact ⟨rfl, .inl (heads.head?_of_sign (by rw [opens]; rfl))⟩
    · exact ⟨rfl, .inr (heads.head?_of_sign (by rw [closes]; rfl))⟩
  | missingOperator offset =>
    obtain rfl := concerns
    exact ⟨rfl, listed⟩
  | notUnary display offset =>
    obtain ⟨rfl, rfl⟩ := concerns
    exact ⟨rfl, heads.display⟩
  | unexpectedToken display offset =>
    obtain ⟨rfl, rfl⟩ := concerns
    exact ⟨rfl, heads.display⟩
  | invalidLiteral text offset =>
    obtain ⟨rfl, rfl, isDecimal | isHexadecimal⟩ := concerns
    · exact ⟨rfl, heads.text_isPrefix (by rw [isDecimal]; decide)⟩
    · exact ⟨rfl, heads.text_isPrefix (by rw [isHexadecimal]; decide)⟩
  | unknownRegister name offset =>
    obtain ⟨rfl, rfl, isRegister⟩ := concerns
    exact ⟨rfl, heads.name_isPrefix isRegister⟩
  | unknownSymbol name offset =>
    obtain ⟨rfl, rfl, isSymbol⟩ := concerns
    exact ⟨rfl, heads.text_isPrefix (by rw [isSymbol]; decide)⟩
  | divisionByZero offset =>
    obtain ⟨rfl, isSlash⟩ := concerns
    exact ⟨rfl, heads.head?_of_sign (by rw [isSlash]; rfl)⟩
  | noMatch | tooManyTokens | missingOperand | memory => cases concerns

end Token.Heads

/-- An error with an offset points to the text at that offset. -/
theorem pointsTo_of_evaluate {environment : Environment} {expression : String}
    {error : ExpressionError} {offset : Nat}
    (failed : environment.evaluate expression = .error error)
    (located : error.offset? = some offset) :
    ∃ before rest, expression.toList = before ++ rest ∧ offset = byteLength before ∧ rest ≠ [] ∧
      error.PointsTo expression rest := by
  rcases Environment.evaluate_arises failed with unscanned | ⟨stream, scanned, arises⟩
  · have scanned := tokenize_cases expression
    rw [unscanned] at scanned
    cases scanned with
    | @full token next =>
      cases located
      have member : token ∈ expressionTokens expression := List.mem_of_getElem? next
      obtain ⟨before, rest, split, starts, heads⟩ := heads_of_mem_tokensFrom member
      rw [Nat.zero_add] at starts
      exact ⟨before, rest, split, starts, heads.more, token, next, rfl⟩
    | @unmatched before rest split more =>
      cases located
      exact ⟨before, rest, split, Nat.zero_add _, more, String.toList_ofList⟩
  · cases arises with
    | absence => cases located
    | memory => cases located
    | token member concerns =>
      obtain ⟨listed, before, rest, split, starts, heads⟩ :=
        heads_of_mem_resolveUnary scanned member
      obtain ⟨offsetSame, points⟩ := heads.pointsTo concerns listed
      rw [located] at offsetSame
      cases offsetSame
      exact ⟨before, rest, split, starts, heads.more, points⟩

/-- If an error has an offset, this is a character boundary before the end of the expression, the
expression continues there with what the error is about, and the report has the expression and below
it a caret after as many spaces as there are characters before the offset. -/
theorem evaluate_error_position (environment : Environment) {expression : String}
    {error : ExpressionError} {offset : Nat}
    (failed : environment.evaluate expression = .error error)
    (located : error.offset? = some offset) :
    ∃ before rest, expression.toList = before ++ rest ∧ offset = byteLength before ∧
      offset < expression.utf8ByteSize ∧ error.PointsTo expression rest ∧
      ∀ style, error.report style expression =
        style.highlight ReportStyle.red ++ "error" ++ style.reset ++ ": " ++ error.message ++ "\n" ++
          ("  " ++ expression ++ "\n" ++
            "  " ++ String.ofList (List.replicate before.length ' ') ++
            style.highlight ReportStyle.green ++ "^\n" ++ style.reset) := by
  obtain ⟨before, rest, split, rfl, more, points⟩ := pointsTo_of_evaluate failed located
  refine ⟨before, rest, split, rfl, ?_, points, fun style => ?_⟩
  · have positive := mt (byteLength_eq_zero_iff rest).mp more
    rw [← byteLength_toList, split, byteLength_append]
    omega
  · rw [ExpressionError.report, located]
    simp only [caretLines, caretColumn_of_append split]

/-- The slash of a division by zero is pointed at. -/
theorem evaluate_error_position_of_division :
    let environment : Environment :=
      ⟨fun _ => none, fun address _ _ => .error (.fault address), fun _ => none, false⟩
    let error : ExpressionError := .divisionByZero 3
    environment.evaluate "12 / (3-3)" = .error error ∧ error.offset? = some 3 ∧
      ∃ before rest, "12 / (3-3)".toList = before ++ rest ∧ 3 = byteLength before ∧
        rest.head? = some '/' := by
  intro environment error
  have failed : environment.evaluate "12 / (3-3)" = .error error := by decide +kernel
  obtain ⟨before, rest, split, starts, -, points, -⟩ :=
    evaluate_error_position environment failed rfl
  exact ⟨failed, rfl, before, rest, split, starts, points⟩

end GuestProbe
