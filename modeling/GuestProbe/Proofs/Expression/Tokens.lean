import GuestProbe.Proofs.Expression.Pieces

/-! # The tokens of an expression

`expressionTokens` lists all tokens that the rules find in an expression before the first text that
none of them matches, without regard to how many a stream holds. A scan gives all of them, unless
there are too many or such a text remains (`tokenize_cases`).

Each token heads the part of the expression from its offset on, which starts with the token as it is
displayed (`heads_of_mem_tokensFrom`). Telling unary operators from binary ones changes neither
(`heads_of_mem_resolveUnary`).
-/

namespace GuestProbe

open Text

/-- The tokens of a text that starts at an offset. -/
def tokensFrom (offset : Nat) (text : List Char) : List Token :=
  match _success : findRule? text with
  | none => []
  | some found =>
      (found.token? offset).toList ++ tokensFrom (offset + byteLength found.lexeme) found.rest
termination_by text.length
decreasing_by exact findRule?_rest_lt (by assumption)

/-- The tokens of an expression, as far as the rules match it. -/
def expressionTokens (expression : String) : List Token :=
  tokensFrom 0 expression.toList

theorem tokensFrom_of_none {offset : Nat} {text : List Char} (none : findRule? text = none) :
    tokensFrom offset text = [] := by
  rw [tokensFrom]
  split
  · rfl
  · next success => cases none.symm.trans success

theorem tokensFrom_of_some {offset : Nat} {text : List Char} {found : RuleMatch}
    (success : findRule? text = some found) :
    tokensFrom offset text =
      (found.token? offset).toList ++ tokensFrom (offset + byteLength found.lexeme) found.rest := by
  rw [tokensFrom]
  split
  · next none => cases none.symm.trans success
  · next other same =>
    cases same.symm.trans success
    rfl

theorem token?_eq_some {text : List Char} {found : RuleMatch}
    (success : findRule? text = some found) (notBlank : found.rule.kind ≠ .whitespace)
    (offset : Nat) : found.token? offset = some (Piece.token ⟨offset, found⟩) := by
  rw [RuleMatch.token?, if_neg notBlank, ← ofText_eq_token success]
  rfl

/-- The tokens of a text are those of the pieces that are kept. -/
theorem tokensFrom_eq (offset : Nat) (text : List Char) :
    tokensFrom offset text = (keptFrom offset text).map Piece.token := by
  induction offset, text using piecesFrom.induct with
  | case1 offset text none =>
    rw [tokensFrom_of_none none, keptFrom_of_none none, List.map_nil]
  | case2 offset text found success ih =>
    rw [tokensFrom_of_some success, ih]
    by_cases blank : found.rule.kind = .whitespace
    · rw [RuleMatch.token?, if_pos blank, keptFrom_of_blank success blank, Option.toList_none,
        List.nil_append]
    · rw [token?_eq_some success blank, keptFrom_of_token success blank, Option.toList_some,
        List.singleton_append, List.map_cons]

/-! ## Scans -/

/-- What a scan of a text that starts at an offset can come to. -/
inductive Scanned (stream : TokenStream) (offset : Nat) (text : List Char) :
    Except ExpressionError TokenStream → Prop where
  /-- The stream has all tokens. -/
  | complete {longer : TokenStream}
      (all : longer.tokens = stream.tokens ++ tokensFrom offset text) :
      Scanned stream offset text (.ok longer)
  /-- A token is the first that finds no room. -/
  | full {token : Token}
      (next : (stream.tokens ++ tokensFrom offset text)[TokenStream.capacity]? = some token) :
      Scanned stream offset text (.error (.tooManyTokens token.offset))
  /-- No rule matches the text after a part. -/
  | unmatched {before rest : List Char} (split : text = before ++ rest) (more : rest ≠ []) :
      Scanned stream offset text
        (.error (.noMatch (offset + byteLength before) (String.ofList rest)))

theorem scanned_scanFrom (stream : TokenStream) (offset : Nat) (text : List Char) :
    Scanned stream offset text (scanFrom stream offset text).outcome := by
  have outcome := outcome_scanFrom stream offset text
  rw [← tokensFrom_eq] at outcome
  generalize (scanFrom stream offset text).outcome = result at outcome ⊢
  cases result with
  | ok longer => exact .complete (scanResult_eq_ok_iff.mp outcome.symm).2.2
  | error error =>
    rcases scanResult_eq_error_iff.mp outcome.symm with ⟨token, next, rfl⟩ | ⟨-, more, rfl⟩
    · exact .full next
    · exact .unmatched (textOf_piecesFrom offset text).symm more

/-- An expression is cut into all of its tokens, or one of them is the first that finds no room, or
no rule matches what remains. -/
theorem tokenize_cases (expression : String) :
    Scanned .empty 0 expression.toList (tokenize expression) :=
  scanned_scanFrom .empty 0 expression.toList

/-! ## Places of tokens -/

/-- The text starts with the token. -/
structure Token.Heads (token : Token) (text : List Char) : Prop where
  more : text ≠ []
  display : token.display.toList <+: text
  sign : ∀ sign ∈ token.kind.sign?, sign <+: text

theorem takeBytes_isPrefix (limit : Nat) (text : List Char) : takeBytes limit text <+: text := by
  induction text generalizing limit with
  | nil => exact List.nil_prefix
  | cons first rest ih =>
    rw [takeBytes]
    split
    · exact (List.prefix_cons_inj first).mpr (ih _)
    · exact List.nil_prefix

/-- Whatever fits is part of what is taken. -/
theorem isPrefix_takeBytes {limit : Nat} {front text : List Char} (leads : front <+: text)
    (fits : byteLength front ≤ limit) : front <+: takeBytes limit text := by
  induction front generalizing limit text with
  | nil => exact List.nil_prefix
  | cons first front ih =>
    obtain ⟨back, rfl⟩ := leads
    rw [byteLength_cons] at fits
    rw [List.cons_append, takeBytes, if_pos (by omega), List.prefix_cons_inj]
    exact ih (List.prefix_append front back) (by omega)

theorem Token.toList_display (token : Token) :
    token.display.toList = token.kind.written token.text.toList := by
  rw [display, TokenKind.written]
  split
  · rw [String.toList_append]; rfl
  · rfl

/-- The token of a piece stands where the piece starts. -/
theorem heads_of_token? {text : List Char} {found : RuleMatch} {offset : Nat} {token : Token}
    (success : findRule? text = some found) (made : found.token? offset = some token) :
    token.offset = offset ∧ token.kind = found.rule.kind ∧ token.Heads text := by
  have split := findRule?_append success
  simp only [RuleMatch.token?, Option.ite_none_left_eq_some, Option.some.injEq] at made
  obtain ⟨-, rfl⟩ := made
  refine ⟨rfl, rfl, ?_, ?_, ?_⟩
  · rw [split]
    exact List.append_ne_nil_of_left_ne_nil (findRule?_ne_nil success) _
  · rw [Token.toList_display, Token.ofText, String.toList_ofList]
    refine List.IsPrefix.trans ?_ ⟨found.rest, split.symm⟩
    simp only [TokenKind.written, RuleMatch.tokenText]
    split
    · next isRegister =>
      obtain ⟨name, lexeme, -⟩ := lexeme_of_register success isRegister
      rw [lexeme]
      exact (List.prefix_cons_inj '$').mpr (takeBytes_isPrefix ..)
    · exact takeBytes_isPrefix ..
  · intro sign stands
    rw [← lexeme_of_sign? success stands]
    exact ⟨found.rest, split.symm⟩

/-- A token of a text is that of a piece somewhere in the text. -/
theorem exists_piece_of_mem_tokensFrom {offset : Nat} {text : List Char} {token : Token}
    (member : token ∈ tokensFrom offset text) :
    ∃ before rest found, text = before ++ rest ∧ findRule? rest = some found ∧
      found.token? (offset + byteLength before) = some token := by
  rw [tokensFrom_eq] at member
  obtain ⟨piece, kept, rfl⟩ := List.mem_map.mp member
  obtain ⟨among, notBlank⟩ := List.mem_filter.mp kept
  obtain ⟨before, after, split⟩ := List.mem_iff_append.mp among
  obtain ⟨starts, success⟩ := piece_of_piecesFrom split
  have whole := textOf_piecesFrom offset text
  rw [split, textOf, List.flatMap_append, List.append_assoc] at whole
  refine ⟨textOf before, textOf (piece :: after) ++ unread text, piece.found, whole.symm, success, ?_⟩
  rw [← starts]
  exact token?_eq_some success (of_decide_eq_true notBlank) piece.offset

/-- A token of a text that starts at an offset stands at its own offset. -/
theorem heads_of_mem_tokensFrom {offset : Nat} {text : List Char} {token : Token}
    (member : token ∈ tokensFrom offset text) :
    ∃ before rest, text = before ++ rest ∧ token.offset = offset + byteLength before ∧
      token.Heads rest := by
  obtain ⟨before, rest, found, split, success, made⟩ := exists_piece_of_mem_tokensFrom member
  obtain ⟨starts, -, heads⟩ := heads_of_token? success made
  exact ⟨before, rest, split, starts, heads⟩

/-! ## Unary operators -/

theorem TokenKind.sign?_of_unaryForm? {kind form : TokenKind}
    (resolved : kind.unaryForm? = some form) :
    form.sign? = kind.sign? ∧ kind ≠ .register ∧ form ≠ .register := by
  cases kind <;> cases resolved <;> decide

/-- Deciding about a token changes neither its place nor how it is written. -/
theorem Token.resolveUnary_written (token : Token) (previous : Option TokenKind) :
    (token.resolveUnary previous).offset = token.offset ∧
      (token.resolveUnary previous).display = token.display ∧
      (token.resolveUnary previous).kind.sign? = token.kind.sign? := by
  rw [resolveUnary]
  cases resolved : token.kind.unaryForm? with
  | none => exact ⟨rfl, rfl, rfl⟩
  | some form =>
    obtain ⟨sign, notBefore, notAfter⟩ := TokenKind.sign?_of_unaryForm? resolved
    dsimp only
    split
    · exact ⟨rfl, rfl, rfl⟩
    · exact ⟨rfl, by rw [display, display, if_neg notAfter, if_neg notBefore], sign⟩

theorem exists_of_mem_resolveUnaryAfter {previous : Option TokenKind} {tokens : List Token}
    {token : Token} (member : token ∈ resolveUnaryAfter previous tokens) :
    ∃ original ∈ tokens, ∃ before, token = original.resolveUnary before := by
  induction tokens generalizing previous with
  | nil => cases member
  | cons first rest ih =>
    rcases List.mem_cons.mp member with rfl | later
    · exact ⟨first, List.mem_cons_self, previous, rfl⟩
    · obtain ⟨original, among, same⟩ := ih later
      exact ⟨original, List.mem_cons_of_mem _ among, same⟩

theorem Token.Heads.of_resolveUnary {token : Token} {text : List Char} (heads : token.Heads text)
    (previous : Option TokenKind) : (token.resolveUnary previous).Heads text := by
  obtain ⟨-, display, sign⟩ := token.resolveUnary_written previous
  exact ⟨heads.more, display ▸ heads.display, sign ▸ heads.sign⟩

/-- The tokens that are evaluated stand in the expression. -/
theorem heads_of_mem_resolveUnary {expression : String} {stream : TokenStream} {token : Token}
    (success : tokenize expression = .ok stream) (member : token ∈ stream.resolveUnary.tokens) :
    (∃ original ∈ expressionTokens expression, original.offset = token.offset) ∧
      ∃ before rest, expression.toList = before ++ rest ∧ token.offset = byteLength before ∧
        token.Heads rest := by
  have scanned := tokenize_cases expression
  rw [success] at scanned
  obtain ⟨all⟩ := scanned
  obtain ⟨original, among, previous, rfl⟩ := exists_of_mem_resolveUnaryAfter member
  rw [all] at among
  obtain ⟨offset, -, -⟩ := original.resolveUnary_written previous
  obtain ⟨before, rest, split, starts, heads⟩ := heads_of_mem_tokensFrom among
  refine ⟨⟨original, among, offset.symm⟩, before, rest, split, ?_, heads.of_resolveUnary previous⟩
  rw [offset, starts, Nat.zero_add]

end GuestProbe
