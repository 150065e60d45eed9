import GuestProbe.Proofs.Expression.Spacing
import GuestProbe.Proofs.Expression.Tokens

/-! # Displayed tokens

A stream is displayed as the texts of its tokens with one space between neighbours, and an unary
operator is displayed like the binary one that is written in the same way. If no token had to be cut
short, each text is the piece that the token was made from. The rules read a piece behind which the
scan went on in the same way before a space (`reads_of_findRule?`), so the display is cut into the
same tokens again, at other offsets (`tokenize_display`), and telling unary operators from binary
ones comes to the same for them.

So a display has the value of the expression that it came from, or the same error at the offset that
the token in question has in the display (`evaluate_display`).
-/

namespace GuestProbe

open Text

/-- Where the token with the given offset starts in the display of the tokens: behind those with
smaller offsets and a space after each of them. -/
def displayedBefore (tokens : List Token) (offset : Nat) : Nat :=
  byteLength
    ((tokens.filter (·.offset < offset)).flatMap fun token => token.display.toList ++ [' '])

/-- The pieces with one space between neighbours. -/
def displayed (pieces : List Piece) : List Char :=
  [' '].intercalate (pieces.map (·.found.lexeme))

/-- The number of bytes of pieces with one space behind each. -/
def displayedLength (pieces : List Piece) : Nat :=
  byteLength (pieces.flatMap fun piece => piece.found.lexeme ++ [' '])

theorem displayedLength_cons (piece : Piece) (rest : List Piece) :
    displayedLength (piece :: rest) = byteLength piece.found.lexeme + 1 + displayedLength rest := by
  rw [displayedLength, List.flatMap_cons, byteLength_append, byteLength_append]
  rfl

theorem displayed_cons (piece : Piece) (rest : List Piece) :
    displayed (piece :: rest) =
      piece.found.lexeme ++ ((if rest.isEmpty then [] else [' ']) ++ displayed rest) := by
  cases rest with
  | nil => simp [displayed]
  | cons next rest =>
    rw [displayed, List.map_cons, List.map_cons, List.intercalate_cons_cons, List.append_assoc]
    rfl

/-! ## Pieces of an expression -/

/-- A piece that becomes a token is found before a text that can be read on. -/
theorem found_of_mem_keptFrom {offset : Nat} {text : List Char} (whole : unread text = [])
    {piece : Piece} (kept : piece ∈ keptFrom offset text) :
    (∃ here, findRule? here = some piece.found) ∧ piece.found.rule.kind ≠ .whitespace ∧
      Readable piece.found.rest := by
  induction offset, text using piecesFrom.induct with
  | case1 offset text none =>
    rw [keptFrom_of_none none] at kept
    cases kept
  | case2 offset text found success ih =>
    rw [unread_of_some success] at whole
    by_cases isWhitespace : found.rule.kind = .whitespace
    · rw [keptFrom_of_blank success isWhitespace] at kept
      exact ih whole kept
    · rw [keptFrom_of_token success isWhitespace] at kept
      rcases List.mem_cons.mp kept with rfl | later
      · exact ⟨⟨text, success⟩, isWhitespace, readable_of_unread whole⟩
      · exact ih whole later

/-- A token that holds all of its text is displayed as its piece. -/
theorem toList_display_of_fits {text : List Char} {piece : Piece}
    (success : findRule? text = some piece.found)
    (fits : byteLength piece.found.tokenText ≤ Token.textLimit) :
    piece.token.display.toList = piece.found.lexeme := by
  have whole : piece.token.text.toList = piece.found.rule.kind.tokenText piece.found.lexeme := by
    rw [← ofText_eq_token success, Token.ofText, String.toList_ofList]
    exact takeBytes_of_le _ _ fits
  rw [Token.toList_display, whole]
  change piece.found.rule.kind.written (piece.found.rule.kind.tokenText piece.found.lexeme) = _
  rw [TokenKind.written, TokenKind.tokenText]
  split
  · next isRegister =>
    obtain ⟨name, lexeme, -⟩ := lexeme_of_register success isRegister
    rw [lexeme]
    rfl
  · rfl

/-- In the display of pieces in order, a piece stands behind those before it. -/
theorem displayedBefore_of_split {front back : List Piece} {piece : Piece}
    (ordered : (front ++ piece :: back).Pairwise fun first second => first.offset < second.offset)
    (whole : ∀ earlier ∈ front, earlier.token.display.toList = earlier.found.lexeme) :
    displayedBefore ((front ++ piece :: back).map Piece.token) piece.offset =
      displayedLength front := by
  obtain ⟨-, later, across⟩ := List.pairwise_append.mp ordered
  have before : front.filter (fun earlier => decide (earlier.token.offset < piece.offset)) = front :=
    List.filter_eq_self.mpr fun earlier member =>
      decide_eq_true (across earlier member piece List.mem_cons_self)
  have behind : (piece :: back).filter (fun other => decide (other.token.offset < piece.offset)) =
      [] := by
    refine List.filter_eq_nil_iff.mpr fun other member => ?_
    rw [decide_eq_true_eq, Nat.not_lt]
    rcases List.mem_cons.mp member with rfl | inBack
    · exact Nat.le_refl _
    · exact Nat.le_of_lt ((List.pairwise_cons.mp later).1 other inBack)
  rw [displayedBefore, List.filter_map, List.filter_append]
  simp only [Function.comp_def, before, behind, List.append_nil, List.flatMap_map]
  rw [displayedLength, List.flatMap_def, List.flatMap_def]
  congr 2
  refine List.map_congr_left fun earlier member => ?_
  rw [whole earlier member]

/-! ## Cutting a display -/

/-- Pieces that were read on from are cut out of their display again, each behind those before it. -/
theorem cut_of_displayed {place : Nat → Nat} {pieces : List Piece}
    (found : ∀ piece ∈ pieces, (∃ here, findRule? here = some piece.found) ∧
      piece.found.rule.kind ≠ .whitespace ∧ Readable piece.found.rest)
    {offset : Nat} (places : ∀ front piece back, pieces = front ++ piece :: back →
      place piece.offset = offset + displayedLength front) :
    unread (displayed pieces) = [] ∧
      (keptFrom offset (displayed pieces)).map Piece.token =
        (pieces.map Piece.token).map (Token.relocate place) := by
  induction pieces generalizing offset with
  | nil =>
    have none : findRule? [] = none := rfl
    exact ⟨unread_of_none none, by rw [displayed]; exact congrArg _ (keptFrom_of_none none)⟩
  | cons piece rest ih =>
    obtain ⟨⟨⟨here, success⟩, isToken, readable⟩, foundLater⟩ := List.forall_mem_cons.mp found
    let gap : List Char := if rest.isEmpty then [] else [' ']
    have gapBlank : ∀ character ∈ gap, isBlank character = true := by
      intro character member
      simp only [gap] at member
      split at member
      · cases member
      · obtain rfl := List.mem_singleton.mp member
        rfl
    have follows : ∀ character ∈ (gap ++ displayed rest).head?, isBlank character = true := by
      intro character member
      cases rest with
      | nil => cases member
      | cons next rest =>
        cases member
        rfl
    have reads := reads_of_findRule? success isToken readable (.inr follows)
    have first : place piece.offset = offset := places [] piece rest rfl
    obtain ⟨passed, kept⟩ := cut_of_blanks gapBlank (offset + byteLength piece.found.lexeme)
      (displayed rest)
    have placesLater : ∀ front next back, rest = front ++ next :: back → place next.offset =
        offset + byteLength piece.found.lexeme + byteLength gap + displayedLength front := by
      intro front next back split
      have width : byteLength gap = 1 := by
        have more : rest.isEmpty = false := by rw [split]; cases front <;> rfl
        simp only [gap, more]
        rfl
      rw [places (piece :: front) next back (by rw [split]; rfl), width,
        displayedLength_cons]
      omega
    obtain ⟨whole, later⟩ := ih foundLater placesLater
    rw [displayed_cons]
    refine ⟨(unread_of_reads reads).trans (passed.trans whole), ?_⟩
    rw [tokens_of_reads reads isToken, kept, later, List.map_cons, List.map_cons, Token.relocate]
    simp only [Piece.token, first]
    rfl

/-- The tokens of an expression none of which had to be cut short are the tokens of their display,
at the offsets that they have there. -/
theorem tokenize_display {expression : String} {stream : TokenStream}
    (success : tokenize expression = .ok stream)
    (fits : ∀ piece ∈ keptFrom 0 expression.toList,
      byteLength piece.found.tokenText ≤ Token.textLimit) :
    ∃ shown, tokenize stream.display = .ok shown ∧
      shown.tokens = stream.tokens.map (Token.relocate (displayedBefore stream.tokens)) := by
  obtain ⟨whole, -, tokens⟩ := (tokenize_eq_ok_iff expression stream).mp success
  have display : ∀ piece ∈ keptFrom 0 expression.toList,
      piece.token.display.toList = piece.found.lexeme := by
    intro piece kept
    obtain ⟨⟨here, found⟩, -, -⟩ := found_of_mem_keptFrom whole kept
    exact toList_display_of_fits found (fits piece kept)
  have text : stream.display.toList = displayed (keptFrom 0 expression.toList) := by
    rw [TokenStream.display, String.toList_intercalate, tokens, List.map_map, List.map_map,
      displayed]
    congr 1
    exact List.map_congr_left display
  have ordered : (keptFrom 0 expression.toList).Pairwise
      fun first second => first.offset < second.offset :=
    (pairwise_offset_piecesFrom 0 expression.toList).filter _
  have places : ∀ front piece back, keptFrom 0 expression.toList = front ++ piece :: back →
      displayedBefore stream.tokens piece.offset = 0 + displayedLength front := by
    intro front piece back split
    rw [tokens, Nat.zero_add, split]
    rw [split] at ordered display
    exact displayedBefore_of_split ordered fun earlier member =>
      display earlier (List.mem_append_left _ member)
  obtain ⟨wholeDisplay, tokensDisplay⟩ :=
    cut_of_displayed (fun piece kept => found_of_mem_keptFrom whole kept) places
  rw [← tokens] at tokensDisplay
  refine ⟨⟨stream.tokens.map (Token.relocate (displayedBefore stream.tokens)), ?_⟩, ?_, rfl⟩
  · rw [List.length_map]
    exact stream.length_le
  · have count := congrArg List.length tokensDisplay
    rw [List.length_map, List.length_map] at count
    rw [tokenize_eq_ok_iff, text]
    exact ⟨wholeDisplay, Nat.le_trans (Nat.le_of_eq count) stream.length_le, tokensDisplay.symm⟩

/-! ## Displays of decided tokens -/

theorem map_display_resolveUnaryAfter (previous : Option TokenKind) (tokens : List Token) :
    (resolveUnaryAfter previous tokens).map Token.display = tokens.map Token.display := by
  induction tokens generalizing previous with
  | nil => rfl
  | cons token rest ih =>
    rw [resolveUnaryAfter, List.map_cons, List.map_cons, ih, (token.resolveUnary_written previous).2.1]

/-- An unary operator is displayed like the binary one. -/
theorem display_resolveUnary (stream : TokenStream) :
    stream.resolveUnary.display = stream.display := by
  rw [TokenStream.display, TokenStream.display, ← map_display_resolveUnaryAfter none stream.tokens]
  rfl

/-- If no token of an expression had to be cut short, its display is cut into tokens of the same
kinds, precedences and texts, and so is the display of the tokens with the unary operators told from
the binary ones, of which the same are unary again. Only the offsets are those in the display. Each
of the two displays has the value of the expression, or the same error with its offset moved in the
same way. -/
theorem evaluate_display {expression : String} {stream : TokenStream}
    (success : tokenize expression = .ok stream)
    (fits : ∀ piece ∈ keptFrom 0 expression.toList,
      byteLength piece.found.tokenText ≤ Token.textLimit) :
    let place := displayedBefore stream.tokens
    (∃ shown, tokenize stream.display = .ok shown ∧
      shown.tokens = stream.tokens.map (Token.relocate place)) ∧
    (∃ shown, tokenize stream.resolveUnary.display = .ok shown ∧
      shown.resolveUnary.tokens = stream.resolveUnary.tokens.map (Token.relocate place)) ∧
    ∀ environment : Environment,
      environment.evaluate stream.display =
          (environment.evaluate expression).mapError (ExpressionError.relocate place) ∧
        environment.evaluate stream.resolveUnary.display =
          (environment.evaluate expression).mapError (ExpressionError.relocate place) := by
  intro place
  obtain ⟨shown, again, tokens⟩ := tokenize_display success fits
  have evaluated (environment : Environment) :=
    environment.evaluate_relocate place success again tokens
  refine ⟨⟨shown, again, tokens⟩, ⟨shown, ?_, ?_⟩, fun environment => ⟨evaluated environment, ?_⟩⟩
  · rw [display_resolveUnary]
    exact again
  · have resolved := resolveUnaryAfter_relocate place none stream.tokens
    rwa [← tokens] at resolved
  · rw [display_resolveUnary]
    exact evaluated environment

/-- The slash of `-$eax*-2/0` stands at offset 8, and at offset 13 in the display, in which both
minus signs are unary again. -/
theorem evaluate_display_of_negated_product :
    let environment : Environment :=
      ⟨fun _ => some 3, fun address _ _ => .error (.fault address), fun _ => none, false⟩
    (∀ piece ∈ keptFrom 0 "-$eax*-2/0".toList,
      byteLength piece.found.tokenText ≤ Token.textLimit) ∧
    ∃ stream, tokenize "-$eax*-2/0" = .ok stream ∧
      stream.resolveUnary.display = "- $eax * - 2 / 0" ∧
      environment.evaluate "-$eax*-2/0" = .error (.divisionByZero 8) ∧
      environment.evaluate "- $eax * - 2 / 0" = .error (.divisionByZero 13) := by
  intro environment
  have fits : ∀ piece ∈ keptFrom 0 "-$eax*-2/0".toList,
      byteLength piece.found.tokenText ≤ Token.textLimit := by decide +kernel
  let stream : TokenStream :=
    ⟨(keptFrom 0 "-$eax*-2/0".toList).map Piece.token, by decide +kernel⟩
  have success : tokenize "-$eax*-2/0" = .ok stream :=
    (tokenize_eq_ok_iff ..).mpr ⟨by decide +kernel, by decide +kernel, rfl⟩
  have shown : stream.resolveUnary.display = "- $eax * - 2 / 0" := by decide +kernel
  have failed : environment.evaluate "-$eax*-2/0" = .error (.divisionByZero 8) := by
    decide +kernel
  have place : displayedBefore stream.tokens 8 = 13 := by decide +kernel
  obtain ⟨-, -, same⟩ := evaluate_display success fits
  have moved := (same environment).2
  rw [shown, failed, Except.mapError, ExpressionError.relocate, place] at moved
  exact ⟨fits, stream, success, shown, failed, moved⟩

end GuestProbe
