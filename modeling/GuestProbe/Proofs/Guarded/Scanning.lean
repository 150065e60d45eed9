import GuestProbe.Proofs.Expression.Tokens
import GuestProbe.Proofs.Guarded.Operations

/-! # Scanning by position

`scanByPosition` is the scan of an expression as a loop over a byte position, with every cut of the
text, every step of the position and every truncation of a token as a guarded operation, and
`resolveInPlace` is the loop over the indices of a stream that tells unary operators from binary
ones. Both stay within the domains of their operations and compute what `tokenize` and
`TokenStream.resolveUnary` define (`scanByPosition_eq`, `resolveInPlace_eq`).

A match takes whole characters of the text that it is found in, so the position is always a
character boundary, and the piece of a register starts with its one-byte dollar sign. A match takes
at least one byte, so there is at most one round for each byte of the text.
-/

namespace GuestProbe

open Text

namespace Guarded

/-! ## Truncation -/

/-- The greatest character boundary of a text up to a length, found by lowering the length. -/
def boundaryUpTo (text : List Char) (length : Nat) : Guarded Nat :=
  if (splitBytes? length text).isSome then pure length
  else
    match length with
    | 0 => throw .underflow
    | shorter + 1 => boundaryUpTo text shorter

/-- As much of a text as a token keeps. -/
def truncated (text : List Char) : Guarded (List Char) := do
  textBefore (← boundaryUpTo text (min (byteLength text) Token.textLimit)) text

/-- Bytes that no whole character fills are not used. -/
theorem takeBytes_of_between {limit smaller : Nat} {text : List Char}
    (kept : byteLength (takeBytes limit text) ≤ smaller) (within : smaller ≤ limit) :
    takeBytes smaller text = takeBytes limit text := by
  have narrower := isPrefix_takeBytes (takeBytes_isPrefix smaller text)
    (Nat.le_trans (byteLength_takeBytes_le smaller text) within)
  have wider := isPrefix_takeBytes (takeBytes_isPrefix limit text) kept
  exact narrower.eq_of_length (Nat.le_antisymm narrower.length_le wider.length_le)

theorem takeBytes_byteLength (front back : List Char) :
    takeBytes (byteLength front) (front ++ back) = front := by
  induction front with
  | nil => cases back with
    | nil => rfl
    | cons first rest => exact if_neg (Nat.not_le.mpr first.utf8Size_pos)
  | cons first front ih =>
    simp only [byteLength_cons, List.cons_append, takeBytes, Nat.le_add_right, if_true,
      Nat.add_sub_cancel_left, ih]

/-- The search stops at the start of the text at the latest. -/
theorem boundaryUpTo_eq (text : List Char) (length : Nat) :
    boundaryUpTo text length = pure (byteLength (takeBytes length text)) := by
  induction length with
  | zero =>
    rw [boundaryUpTo, splitBytes?]
    cases text with
    | nil => rfl
    | cons first rest => rw [takeBytes, if_neg (Nat.not_le.mpr first.utf8Size_pos)]; rfl
  | succ length ih =>
    rw [boundaryUpTo]
    cases cut : splitBytes? (length + 1) text with
    | some parts =>
      obtain ⟨rfl, same⟩ := (splitBytes?_eq_some_iff ..).mp cut
      have kept : takeBytes (length + 1) (parts.1 ++ parts.2) = parts.1 := by
        rw [same, takeBytes_byteLength]
      rw [kept, ← same]
      rfl
    | none =>
      -- the kept part would be a boundary if it took all the bytes
      have fewer : byteLength (takeBytes (length + 1) text) ≤ length := by
        refine Nat.le_of_lt_succ (Nat.lt_of_le_of_ne (byteLength_takeBytes_le ..) fun all => ?_)
        obtain ⟨back, split⟩ := takeBytes_isPrefix (length + 1) text
        have boundary := splitBytes?_byteLength (takeBytes (length + 1) text) back
        rw [split, all, cut] at boundary
        cases boundary
      rw [← takeBytes_of_between fewer (Nat.le_succ length)]
      exact ih

theorem truncated_eq (text : List Char) :
    truncated text = pure (takeBytes Token.textLimit text) := by
  obtain ⟨back, split⟩ := takeBytes_isPrefix Token.textLimit text
  have kept : byteLength (takeBytes Token.textLimit text) ≤
      min (byteLength text) Token.textLimit := by
    have all := congrArg byteLength split
    have bound := byteLength_takeBytes_le Token.textLimit text
    rw [byteLength_append] at all
    omega
  have cut := textBefore_byteLength (takeBytes Token.textLimit text) back
  rw [split] at cut
  rw [truncated, boundaryUpTo_eq, takeBytes_of_between kept (Nat.min_le_right ..), pure_bind, cut]

/-! ## Pieces -/

/-- The position after a match of some bytes. -/
def advanced (position length : Nat) : Guarded Nat :=
  if length = 0 then throw .standstill else pure (position + length)

/-- The token for a piece at a position. -/
def tokenAt (kind : TokenKind) (lexeme : List Char) (position : Nat) : Guarded Token := do
  let text ← if kind = .register then textAfter 1 lexeme else pure lexeme
  pure ⟨kind, kind.precedence, String.ofList (← truncated text), position⟩

variable {text : List Char} {found : RuleMatch}

theorem advanced_of_findRule? (success : findRule? text = some found) (position : Nat) :
    advanced position (byteLength found.lexeme) =
      pure (position + byteLength found.lexeme) :=
  if_neg fun none => findRule?_ne_nil success ((byteLength_eq_zero_iff _).mp none)

theorem tokenAt_of_findRule? (success : findRule? text = some found) (position : Nat) :
    tokenAt found.rule.kind found.lexeme position =
      pure (Token.ofText found.rule.kind found.rule.kind.precedence
        (found.rule.kind.tokenText found.lexeme) position) := by
  rw [tokenAt, TokenKind.tokenText]
  split
  · next isRegister =>
    obtain ⟨name, lexeme, -⟩ := lexeme_of_register success isRegister
    have strip : textAfter 1 ('$' :: name) = pure name := textAfter_byteLength ['$'] name
    simp only [lexeme, strip, pure_bind, truncated_eq, List.drop_one, List.tail_cons]
    rfl
  · simp only [pure_bind, truncated_eq]
    rfl

/-! ## The scan -/

/-- Scans an expression from a position on and adds its tokens to a stream. -/
def scanByPosition (expression : List Char) :
    (rounds : Nat) → (stream : TokenStream) → (position : Nat) → GuardedOutcome TokenStream
  | 0, _, _ => throwThe Violation .exhausted
  | rounds + 1, stream, position => do
      if position < byteLength expression then
        let rest ← textAfter position expression
        match findRule? rest with
        | none => throw (.noMatch position (String.ofList rest))
        | some found =>
            let lexeme ← textBefore (byteLength found.lexeme) rest
            let next ← advanced position (byteLength found.lexeme)
            if found.rule.kind = .whitespace then scanByPosition expression rounds stream next
            else
              let token ← tokenAt found.rule.kind lexeme position
              match stream.push? token with
              | none => throw (.tooManyTokens position)
              | some longer => scanByPosition expression rounds longer next
      else pure stream

/-- From a character boundary on, the scan by position comes to the outcome of the scan. -/
theorem scanByPosition_append (before : List Char) {rest : List Char} {rounds : Nat}
    (enough : byteLength rest < rounds) (stream : TokenStream) :
    scanByPosition (before ++ rest) rounds stream (byteLength before) =
      settled (scanFrom stream (byteLength before) rest).outcome := by
  induction rounds generalizing before rest stream with
  | zero => cases enough
  | succ rounds ih =>
    rw [scanByPosition, byteLength_append]
    by_cases done : rest = []
    · rw [done, byteLength_nil, Nat.add_zero, if_neg (Nat.lt_irrefl _), outcome_scanFrom_nil]
      rfl
    have more : byteLength before < byteLength before + byteLength rest := by
      have positive := mt (byteLength_eq_zero_iff rest).mp done
      omega
    rw [if_pos more, textAfter_byteLength, liftM_pure_bind]
    cases success : findRule? rest with
    | none =>
      rw [outcome_scanFrom_of_none done success]
      rfl
    | some found =>
      have split := findRule?_append success
      -- every later round starts at the end of this match, which is not empty
      have ahead (longer : TokenStream) :
          scanByPosition (before ++ rest) rounds longer
              (byteLength before + byteLength found.lexeme) =
            settled (scanFrom longer (byteLength before + byteLength found.lexeme)
              found.rest).outcome := by
        have consumed := mt (byteLength_eq_zero_iff found.lexeme).mp (findRule?_ne_nil success)
        rw [split, byteLength_append] at enough
        rw [split, ← List.append_assoc, ← byteLength_append]
        exact ih (before ++ found.lexeme) (by omega) longer
      have cut : textBefore (byteLength found.lexeme) rest = pure found.lexeme := by
        rw [split]
        exact textBefore_byteLength found.lexeme found.rest
      simp only [cut, advanced_of_findRule? success, liftM_pure_bind]
      by_cases blank : found.rule.kind = .whitespace
      · rw [if_pos blank, ahead, outcome_scanFrom_of_blank ⟨_, _, success, blank⟩]
      · rw [if_neg blank, tokenAt_of_findRule? success, liftM_pure_bind,
          outcome_scanFrom_of_reads ⟨_, _, success, rfl⟩ blank]
        cases stream.push? _ with
        | none => rfl
        | some longer => exact ahead longer

theorem scanByPosition_eq (expression : String) :
    scanByPosition expression.toList (byteLength expression.toList + 1) .empty 0 =
      settled (tokenize expression) :=
  scanByPosition_append [] (Nat.lt_succ_self _) .empty

/-! ## Unary operators -/

/-- Decides the token with an index, by the token before it. -/
def resolveAt (tokens : List Token) (index : Nat) : Guarded (List Token) := do
  let token ← element tokens index
  match token.kind.unaryForm? with
  | none => pure tokens
  | some kind =>
      let afterOperand ← if index = 0 then pure false else do
        let previous ← element tokens (← minus index 1)
        pure previous.kind.endsOperand
      if afterOperand then pure tokens
      else pure (tokens.set index { token with kind, precedence := kind.precedence })

/-- Decides all tokens from left to right. -/
def resolveInPlace (tokens : List Token) : Guarded (List Token) :=
  (List.range tokens.length).foldlM resolveAt tokens

/-- A step decides the first of the tokens that are not decided yet. -/
theorem resolveAt_append (decided : List Token) (token : Token) (rest : List Token) :
    resolveAt (decided ++ token :: rest) decided.length =
      pure (decided ++ token.resolveUnary (decided.getLast?.map Token.kind) :: rest) := by
  rw [resolveAt, element_append, pure_bind, Token.resolveUnary]
  cases token.kind.unaryForm? with
  | none => rfl
  | some form =>
    rcases List.eq_nil_or_concat decided with rfl | ⟨earlier, previous, same⟩
    · rfl
    · rw [List.concat_eq_append] at same
      subst same
      have found : element (earlier ++ [previous] ++ token :: rest) earlier.length =
          pure previous := by
        rw [List.append_assoc]
        exact element_append earlier previous (token :: rest)
      have length : (earlier ++ [previous]).length = earlier.length + 1 := by simp
      simp only [length, Nat.succ_ne_zero, if_false, minus_one_succ, found, pure_bind,
        List.getLast?_concat, Option.map_some, Option.any_some]
      split
      · rfl
      · rw [← length, List.set_append_right _ _ (Nat.le_refl _), Nat.sub_self, List.set_cons_zero]

theorem foldlM_resolveAt (decided rest : List Token) :
    (List.range' decided.length rest.length).foldlM resolveAt (decided ++ rest) =
      pure (decided ++ resolveUnaryAfter (decided.getLast?.map Token.kind) rest) := by
  induction rest generalizing decided with
  | nil => rfl
  | cons token rest ih =>
    have next := ih (decided ++ [token.resolveUnary (decided.getLast?.map Token.kind)])
    rw [List.append_assoc, List.append_assoc, List.getLast?_concat, List.length_append,
      List.length_singleton] at next
    rw [List.length_cons, List.range'_succ, List.foldlM_cons, resolveAt_append, pure_bind]
    exact next

theorem resolveInPlace_eq (stream : TokenStream) :
    resolveInPlace stream.tokens = pure stream.resolveUnary.tokens := by
  rw [resolveInPlace, List.range_eq_range']
  exact foldlM_resolveAt [] stream.tokens

end Guarded

end GuestProbe
