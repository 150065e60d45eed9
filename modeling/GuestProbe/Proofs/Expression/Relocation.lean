import GuestProbe.Proofs.Expression.Reduction

/-! # Tokens at other offsets

An evaluation reads the offsets of tokens only to say where an error is. If all tokens of a sequence
are moved to other offsets, in whatever order these are, the sequence is balanced, enclosed and
divided as before, and it has the same value or the same error at the new offset
(`Environment.outcome_run_relocate`, `Environment.evaluate_relocate`).
-/

namespace GuestProbe

/-- The token at the offset that its own offset goes to. -/
def Token.relocate (place : Nat → Nat) (token : Token) : Token :=
  { token with offset := place token.offset }

/-- The error with each offset in it replaced by the one that it goes to. -/
def ExpressionError.relocate (place : Nat → Nat) : ExpressionError → ExpressionError
  | .noMatch offset remaining => .noMatch (place offset) remaining
  | .tooManyTokens offset => .tooManyTokens (place offset)
  | .missingOperand => .missingOperand
  | .unbalancedParenthesis offset => .unbalancedParenthesis (place offset)
  | .missingOperator offset => .missingOperator (place offset)
  | .notUnary token offset => .notUnary token (place offset)
  | .unexpectedToken token offset => .unexpectedToken token (place offset)
  | .invalidLiteral text offset => .invalidLiteral text (place offset)
  | .unknownRegister name offset => .unknownRegister name (place offset)
  | .unknownSymbol name offset => .unknownSymbol name (place offset)
  | .divisionByZero offset => .divisionByZero (place offset)
  | .memory address error => .memory address error

variable (place : Nat → Nat)

@[simp] theorem Token.kind_relocate (token : Token) : (token.relocate place).kind = token.kind :=
  rfl

@[simp] theorem Token.offset_relocate (token : Token) :
    (token.relocate place).offset = place token.offset := rfl

/-! ## Parentheses -/

theorem unpairedAfter?_relocate (pending : List Nat) (tokens : List Token) :
    unpairedAfter? (pending.map place) (tokens.map (Token.relocate place)) =
      (unpairedAfter? pending tokens).map place := by
  induction tokens generalizing pending with
  | nil => exact List.head?_map
  | cons token rest ih =>
    rcases token with ⟨kind, precedence, text, offset⟩
    cases kind with
    | openParen => exact ih (offset :: pending)
    | closeParen =>
      cases pending with
      | nil => rfl
      | cons innermost outer => exact ih outer
    | _ => exact ih pending

theorem depthAfter?_relocate (depth : Nat) (tokens : List Token) :
    depthAfter? depth (tokens.map (Token.relocate place)) = depthAfter? depth tokens := by
  induction tokens generalizing depth with
  | nil => rfl
  | cons token rest ih => simp only [List.map_cons, depthAfter?, Token.kind_relocate, ih]

theorem opensBefore_relocate (awaiting : Nat) (tokens : List Token) :
    opensBefore awaiting (tokens.map (Token.relocate place)) = opensBefore awaiting tokens := by
  induction tokens generalizing awaiting with
  | nil => rfl
  | cons token rest ih => simp only [List.map_cons, opensBefore, Token.kind_relocate, ih]

theorem leavesOpen_relocate (tokens : List Token) :
    leavesOpen (tokens.map (Token.relocate place)) = leavesOpen tokens := by
  rw [leavesOpen, ← List.map_reverse]
  exact opensBefore_relocate place 0 tokens.reverse

theorem isBalanced_relocate (tokens : List Token) :
    isBalanced (tokens.map (Token.relocate place)) = isBalanced tokens := by
  rw [isBalanced, depthAfter?_relocate, isBalanced]

theorem enclosed?_relocate (tokens : List Token) :
    enclosed? (tokens.map (Token.relocate place)) =
      (enclosed? tokens).map (List.map (Token.relocate place)) := by
  cases tokens with
  | nil => rfl
  | cons first rest =>
    rw [List.map_cons, enclosed?, enclosed?, apply_ite (Option.map _), ← List.map_dropLast,
      isBalanced_relocate, List.getLast?_map, Option.map_map]
    exact if_congr .rfl rfl rfl

/-! ## Divisions -/

theorem exposedOperators_relocate (tokens : List Token) :
    exposedOperators (tokens.map (Token.relocate place)) =
      (exposedOperators tokens).map (Prod.map (Token.relocate place) id) := by
  rw [exposedOperators, List.zipIdx_map, List.filter_map, exposedOperators]
  congr 2
  funext candidate
  rcases candidate with ⟨token, index⟩
  simp only [Function.comp_apply, Prod.map_apply, id_eq, Token.kind_relocate, ← List.map_take,
    leavesOpen_relocate]

theorem looser_relocate (chosen : Option (Token × Nat)) (later : Token × Nat) :
    looser (chosen.map (Prod.map (Token.relocate place) id))
        (Prod.map (Token.relocate place) id later) =
      (looser chosen later).map (Prod.map (Token.relocate place) id) := by
  cases chosen with
  | none => rfl
  | some earlier =>
    rw [looser, apply_ite (Option.map _)]
    exact if_congr .rfl rfl rfl

theorem dominantOperator?_relocate (tokens : List Token) :
    dominantOperator? (tokens.map (Token.relocate place)) =
      (dominantOperator? tokens).map (Prod.map (Token.relocate place) id) := by
  rw [dominantOperator?, exposedOperators_relocate, dominantOperator?, List.foldl_map]
  generalize exposedOperators tokens = candidates
  suffices chosen : ∀ chosen : Option (Token × Nat), candidates.foldl
      (fun chosen later => looser chosen (Prod.map (Token.relocate place) id later))
        (chosen.map (Prod.map (Token.relocate place) id)) =
      (candidates.foldl looser chosen).map (Prod.map (Token.relocate place) id) from chosen none
  -- the choice among the candidates before, which the induction leaves open, is moved as well
  induction candidates with
  | nil => exact fun chosen => rfl
  | cons candidate rest ih =>
    intro chosen
    rw [List.foldl_cons, looser_relocate, ih, List.foldl_cons]

/-- The division with all tokens at the offsets that theirs go to. -/
def Division.relocate : Division → Division
  | .nothing => .nothing
  | .single token => .single (token.relocate place)
  | .enclosed interior => .enclosed (interior.map (Token.relocate place))
  | .operatorless first => .operatorless (first.relocate place)
  | .leading first rest => .leading (first.relocate place) (rest.map (Token.relocate place))
  | .around left operator right => .around (left.map (Token.relocate place))
      (operator.relocate place) (right.map (Token.relocate place))

theorem divide_relocate (tokens : List Token) :
    divide (tokens.map (Token.relocate place)) = (divide tokens).relocate place := by
  match tokens with
  | [] => rfl
  | [_] => rfl
  | first :: second :: rest =>
    have inside := enclosed?_relocate place (first :: second :: rest)
    have dominant := dominantOperator?_relocate place (first :: second :: rest)
    simp only [List.map_cons] at inside dominant
    simp only [List.map_cons, divide, inside, dominant]
    cases enclosed? (first :: second :: rest) with
    | some interior => rfl
    | none =>
      rcases dominantOperator? (first :: second :: rest) with _ | ⟨operator, index⟩
      · rfl
      · rw [Option.map_none, Option.map_some, apply_ite (Division.relocate place)]
        refine if_congr .rfl rfl ?_
        rw [Division.relocate, List.map_take, List.map_drop]
        rfl

/-! ## Outcomes -/

theorem Token.resolveUnary_relocate (token : Token) (previous : Option TokenKind) :
    (token.relocate place).resolveUnary previous =
      (token.resolveUnary previous).relocate place := by
  simp only [resolveUnary, kind_relocate]
  cases token.kind.unaryForm? with
  | none => rfl
  | some kind =>
    dsimp only
    split <;> rfl

theorem resolveUnaryAfter_relocate (previous : Option TokenKind) (tokens : List Token) :
    resolveUnaryAfter previous (tokens.map (Token.relocate place)) =
      (resolveUnaryAfter previous tokens).map (Token.relocate place) := by
  induction tokens generalizing previous with
  | nil => rfl
  | cons token rest ih =>
    simp only [List.map_cons, resolveUnaryAfter, Token.resolveUnary_relocate, Token.kind_relocate,
      ih]

theorem mapError_bind {Failure Other Value Result : Type} (function : Failure → Other)
    (outcome : Except Failure Value) (next : Value → Except Failure Result) :
    (outcome >>= next).mapError function =
      outcome.mapError function >>= fun value => (next value).mapError function := by
  cases outcome <;> rfl

theorem Token.literal_relocate (token : Token) (radix : Nat) (digits : List Char) :
    (token.relocate place).literal radix digits =
      (token.literal radix digits).mapError (ExpressionError.relocate place) := by
  simp only [literal]
  cases Text.readWord radix digits <;> rfl

theorem UnaryOperator.meaning_relocate (environment : Environment) (operator : UnaryOperator)
    (word : UInt32) :
    (operator.meaning environment word).mapError (ExpressionError.relocate place) =
      operator.meaning environment word := by
  cases operator with
  | dereference =>
    simp only [meaning]
    cases environment.memory word 4 .ds <;> rfl
  | negate => rfl
  | not => rfl

theorem BinaryOperator.meaning_relocate (operator : BinaryOperator) (offset : Nat)
    (left right : UInt32) :
    (operator.meaning offset left right).mapError (ExpressionError.relocate place) =
      operator.meaning (place offset) left right := by
  cases operator with
  | divide =>
    simp only [meaning]
    split <;> rfl
  | _ => rfl

namespace Environment

theorem outcome_operand_relocate (environment : Environment) (token : Token) :
    (environment.operand (token.relocate place)).outcome =
      (environment.operand token).outcome.mapError (ExpressionError.relocate place) := by
  rcases token with ⟨kind, precedence, text, offset⟩
  cases kind with
  | decimal => exact Token.literal_relocate place _ 10 text.toList
  | hexadecimal =>
    simp only [operand, Token.relocate]
    rcases Text.splitBytes? 2 text.toList with _ | ⟨mark, digits⟩
    · rfl
    · exact Token.literal_relocate place ⟨.hexadecimal, precedence, text, offset⟩ 16 digits
  | register =>
    simp only [operand, Token.relocate]
    cases environment.register text <;> rfl
  | symbol =>
    simp only [operand, Token.relocate]
    cases environment.symbol text with
    | some word => rfl
    | none => cases environment.lenient <;> rfl
  | _ => rfl

theorem value_relocate (environment : Environment) (tokens : List Token) :
    environment.value (tokens.map (Token.relocate place)) =
      (environment.value tokens).mapError (ExpressionError.relocate place) := by
  induction tokens using division_induction with
  | step tokens parts =>
    rw [value_eq, divide_relocate, value_eq]
    cases divided : divide tokens with
    | nothing => rfl
    | single token => exact environment.outcome_operand_relocate place token
    | operatorless first => rfl
    | enclosed interior =>
      rw [divided] at parts
      exact parts interior List.mem_cons_self
    | leading first rest =>
      rw [divided] at parts
      simp only [Division.relocate, valueOfParts, Token.kind_relocate]
      cases first.kind.unaryOperator? with
      | none => rfl
      | some unary =>
        simp only [mapError_bind, parts rest List.mem_cons_self, UnaryOperator.meaning_relocate]
    | around left operator right =>
      rw [divided] at parts
      have before := parts left List.mem_cons_self
      have after := parts right (by simp [Division.parts])
      simp only [Division.relocate, valueOfParts, Token.kind_relocate, mapError_bind, before, after]
      cases operator.kind.binaryOperator? with
      | none => rfl
      | some binary => simp only [BinaryOperator.meaning_relocate, Token.offset_relocate]

/-- Tokens at other offsets have the same value, or the same error at the other offset. -/
theorem outcome_run_relocate (environment : Environment) (tokens : List Token) :
    (environment.run (tokens.map (Token.relocate place))).outcome =
      (environment.run tokens).outcome.mapError (ExpressionError.relocate place) := by
  have unpaired : unpaired? (tokens.map (Token.relocate place)) = (unpaired? tokens).map place :=
    unpairedAfter?_relocate place [] tokens
  rw [outcome_run, outcome_run, unpaired]
  cases unpaired? tokens with
  | some offset => rfl
  | none => exact environment.value_relocate place tokens

/-- An expression whose tokens are those of another one at other offsets has the same value, or the
same error at the other offset. -/
theorem evaluate_relocate (environment : Environment) {expression other : String}
    {stream moved : TokenStream} (success : tokenize expression = .ok stream)
    (successOther : tokenize other = .ok moved)
    (same : moved.tokens = stream.tokens.map (Token.relocate place)) :
    environment.evaluate other =
      (environment.evaluate expression).mapError (ExpressionError.relocate place) := by
  have resolved : resolveUnaryAfter none moved.tokens =
      (resolveUnaryAfter none stream.tokens).map (Token.relocate place) := by
    rw [same]
    exact resolveUnaryAfter_relocate place none stream.tokens
  rw [evaluate, evaluate, successOther, success]
  change (environment.run (resolveUnaryAfter none moved.tokens)).outcome = _
  rw [resolved]
  exact environment.outcome_run_relocate place _

end Environment

end GuestProbe
