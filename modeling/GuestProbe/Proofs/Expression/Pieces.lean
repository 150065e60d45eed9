import GuestProbe.Proofs.Expression.Scanning
import GuestProbe.Proofs.Text.Ascii
import GuestProbe.Proofs.Token.Lexeme

/-! # The pieces of an expression

The rules cut an expression into pieces that follow each other, up to a rest that starts with no
piece (`textOf_piecesFrom`, `findRule?_unread`). Pieces of blanks are dropped and the others are
kept; between two that are kept next to each other there is nothing but blanks (`gap_of_keptFrom`).

The pieces decide what a scan comes to (`outcome_scanFrom`): each kept piece is a token, the first
that finds no room ends the scan, and so does a rest behind the pieces.
-/

namespace GuestProbe

open Text

/-- What a rule matched at a byte offset. -/
structure Piece where
  offset : Nat
  found : RuleMatch

namespace Piece

/-- The piece becomes a token. -/
def isKept (piece : Piece) : Bool :=
  piece.found.rule.kind ≠ .whitespace

/-- The token of the piece, with as many characters of its text as a token may have. -/
def token (piece : Piece) : Token :=
  ⟨piece.found.rule.kind, piece.found.rule.kind.precedence,
    String.ofList (piece.found.tokenText.take Token.textLimit), piece.offset⟩

end Piece

/-- The text of pieces that follow each other. -/
def textOf (pieces : List Piece) : List Char :=
  pieces.flatMap (·.found.lexeme)

theorem textOf_cons (piece : Piece) (pieces : List Piece) :
    textOf (piece :: pieces) = piece.found.lexeme ++ textOf pieces := rfl

/-- The pieces of a text that starts at an offset. -/
def piecesFrom (offset : Nat) (text : List Char) : List Piece :=
  match _success : findRule? text with
  | none => []
  | some found => ⟨offset, found⟩ :: piecesFrom (offset + byteLength found.lexeme) found.rest
termination_by text.length
decreasing_by exact findRule?_rest_lt (by assumption)

/-- The rest of a text behind its pieces. -/
def unread (text : List Char) : List Char :=
  match _success : findRule? text with
  | none => text
  | some found => unread found.rest
termination_by text.length
decreasing_by exact findRule?_rest_lt (by assumption)

/-- The pieces of a text that become tokens. -/
def keptFrom (offset : Nat) (text : List Char) : List Piece :=
  (piecesFrom offset text).filter Piece.isKept

section Steps

variable {offset : Nat} {text : List Char} {found : RuleMatch}

theorem piecesFrom_of_none (none : findRule? text = none) : piecesFrom offset text = [] := by
  rw [piecesFrom]
  split
  · rfl
  · next success => cases none.symm.trans success

theorem piecesFrom_of_some (success : findRule? text = some found) :
    piecesFrom offset text =
      ⟨offset, found⟩ :: piecesFrom (offset + byteLength found.lexeme) found.rest := by
  rw [piecesFrom]
  split
  · next none => cases none.symm.trans success
  · next other same =>
    cases same.symm.trans success
    rfl

theorem unread_of_none (none : findRule? text = none) : unread text = text := by
  rw [unread]
  split
  · rfl
  · next success => cases none.symm.trans success

theorem unread_of_some (success : findRule? text = some found) :
    unread text = unread found.rest := by
  rw [unread]
  split
  · next none => cases none.symm.trans success
  · next other same =>
    cases same.symm.trans success
    rfl

theorem keptFrom_of_none (none : findRule? text = none) : keptFrom offset text = [] := by
  rw [keptFrom, piecesFrom_of_none none, List.filter_nil]

theorem keptFrom_of_blank (success : findRule? text = some found)
    (blank : found.rule.kind = .whitespace) :
    keptFrom offset text = keptFrom (offset + byteLength found.lexeme) found.rest := by
  rw [keptFrom, piecesFrom_of_some success, List.filter_cons_of_neg (by simp [Piece.isKept, blank])]
  rfl

theorem keptFrom_of_token (success : findRule? text = some found)
    (notBlank : found.rule.kind ≠ .whitespace) :
    keptFrom offset text =
      ⟨offset, found⟩ :: keptFrom (offset + byteLength found.lexeme) found.rest := by
  rw [keptFrom, piecesFrom_of_some success,
    List.filter_cons_of_pos (by simp [Piece.isKept, notBlank])]
  rfl

end Steps

/-! ## Places of pieces -/

/-- The pieces and the rest are the whole text. -/
theorem textOf_piecesFrom (offset : Nat) (text : List Char) :
    textOf (piecesFrom offset text) ++ unread text = text := by
  induction offset, text using piecesFrom.induct with
  | case1 offset text none =>
    rw [piecesFrom_of_none none, unread_of_none none]
    rfl
  | case2 offset text found success ih =>
    rw [piecesFrom_of_some success, unread_of_some success, textOf_cons, List.append_assoc, ih,
      ← findRule?_append success]

/-- No piece starts the rest. -/
theorem findRule?_unread (text : List Char) : findRule? (unread text) = none := by
  induction text using unread.induct with
  | case1 text none => rwa [unread_of_none none]
  | case2 text found success ih => rwa [unread_of_some success]

/-- A piece starts where the pieces before it end, and is what the rules find there. -/
theorem piece_of_piecesFrom {offset : Nat} {text : List Char} {before after : List Piece}
    {piece : Piece} (split : piecesFrom offset text = before ++ piece :: after) :
    piece.offset = offset + byteLength (textOf before) ∧
      findRule? (textOf (piece :: after) ++ unread text) = some piece.found := by
  induction before generalizing offset text with
  | nil =>
    cases success : findRule? text with
    | none =>
      rw [piecesFrom_of_none success] at split
      cases split
    | some found =>
      have whole := textOf_piecesFrom offset text
      rw [split] at whole
      rw [piecesFrom_of_some success] at split
      cases split
      exact ⟨rfl, whole.symm ▸ success⟩
  | cons first before ih =>
    cases success : findRule? text with
    | none =>
      rw [piecesFrom_of_none success] at split
      cases split
    | some found =>
      rw [piecesFrom_of_some success, List.cons_append] at split
      obtain ⟨rfl, later⟩ := List.cons.inj split
      obtain ⟨starts, here⟩ := ih later
      refine ⟨?_, unread_of_some success ▸ here⟩
      rw [starts, textOf_cons, byteLength_append, Nat.add_assoc]

theorem le_offset_of_mem_piecesFrom {offset : Nat} {text : List Char} :
    ∀ piece ∈ piecesFrom offset text, offset ≤ piece.offset := by
  intro piece member
  obtain ⟨before, after, split⟩ := List.mem_iff_append.mp member
  rw [(piece_of_piecesFrom split).1]
  exact Nat.le_add_right ..

/-- Later pieces start at greater offsets. -/
theorem pairwise_offset_piecesFrom (offset : Nat) (text : List Char) :
    (piecesFrom offset text).Pairwise fun first second => first.offset < second.offset := by
  induction offset, text using piecesFrom.induct with
  | case1 offset text none =>
    rw [piecesFrom_of_none none]
    exact .nil
  | case2 offset text found success ih =>
    rw [piecesFrom_of_some success]
    refine List.pairwise_cons.mpr ⟨fun later member => ?_, ih⟩
    have after := le_offset_of_mem_piecesFrom later member
    have longer := mt (byteLength_eq_zero_iff found.lexeme).mp (findRule?_ne_nil success)
    change offset < later.offset
    omega

/-- The first piece that is kept stands behind blanks, and the others in the text after it. -/
theorem gap_of_keptFrom_eq_cons {offset : Nat} {text : List Char} {first : Piece}
    {later : List Piece} (kept : keptFrom offset text = first :: later) :
    ∃ gap, (∀ character ∈ gap, isBlank character = true) ∧
      text = gap ++ (first.found.lexeme ++ first.found.rest) ∧
      first.offset = offset + byteLength gap ∧
      later = keptFrom (first.offset + byteLength first.found.lexeme) first.found.rest := by
  induction offset, text using piecesFrom.induct with
  | case1 offset text none =>
    rw [keptFrom_of_none none] at kept
    cases kept
  | case2 offset text found success ih =>
    have split := findRule?_append success
    by_cases blank : found.rule.kind = .whitespace
    · rw [keptFrom_of_blank success blank] at kept
      obtain ⟨gap, blanks, rest, starts, same⟩ := ih kept
      refine ⟨found.lexeme ++ gap, ?_, ?_, ?_, same⟩
      · exact List.forall_mem_append.mpr ⟨isBlank_of_mem_lexeme success blank, blanks⟩
      · rw [List.append_assoc, ← rest, ← split]
      · rw [starts, byteLength_append, Nat.add_assoc]
    · rw [keptFrom_of_token success blank] at kept
      cases kept
      exact ⟨[], fun character member => absurd member List.not_mem_nil, split, rfl, rfl⟩

/-- Between two kept pieces next to each other there are only blanks. -/
theorem gap_of_keptFrom {offset : Nat} {text : List Char} {front back : List Piece}
    {first second : Piece} (kept : keptFrom offset text = front ++ first :: second :: back) :
    ∃ gap, (∀ character ∈ gap, isBlank character = true) ∧
      first.found.rest = gap ++ (second.found.lexeme ++ second.found.rest) ∧
      second.offset = first.offset + byteLength first.found.lexeme + byteLength gap := by
  induction front generalizing offset text with
  | nil =>
    obtain ⟨-, -, -, -, later⟩ := gap_of_keptFrom_eq_cons kept
    obtain ⟨gap, blanks, rest, starts, -⟩ := gap_of_keptFrom_eq_cons later.symm
    exact ⟨gap, blanks, rest, starts⟩
  | cons earlier front ih =>
    obtain ⟨-, -, -, -, later⟩ := gap_of_keptFrom_eq_cons kept
    exact ih later.symm

/-! ## Scans -/

theorem TokenStream.length_of_push?_eq_none {stream : TokenStream} {token : Token}
    (full : stream.push? token = none) : stream.tokens.length = capacity := by
  simp only [push?, dite_eq_right_iff, reduceCtorEq, imp_false] at full
  exact Nat.le_antisymm stream.length_le (Nat.not_lt.mp full)

/-- The token that finds no room is the first beyond the capacity. -/
theorem TokenStream.getElem?_of_push?_eq_none {stream : TokenStream} {token : Token}
    (full : stream.push? token = none) (later : List Token) :
    (stream.tokens ++ token :: later)[capacity]? = some token := by
  rw [← length_of_push?_eq_none full, List.getElem?_append_right (Nat.le_refl _), Nat.sub_self,
    List.getElem?_cons_zero]

theorem outcome_scanFrom_of_none {stream : TokenStream} {offset : Nat} {text : List Char}
    (more : text ≠ []) (none : findRule? text = none) :
    (scanFrom stream offset text).outcome = .error (.noMatch offset (String.ofList text)) := by
  rw [scanFrom, if_neg more]
  split
  · rfl
  · next success => cases none.symm.trans success

/-- The token of a piece has the first bytes of the piece's text. -/
theorem ofText_eq_token {text : List Char} {found : RuleMatch}
    (success : findRule? text = some found) (offset : Nat) :
    Token.ofText found.rule.kind found.rule.kind.precedence
      (found.rule.kind.tokenText found.lexeme) offset = Piece.token ⟨offset, found⟩ := by
  have single := utf8Size_of_mem_lexeme success
  have singleText : ∀ character ∈ found.tokenText, character.utf8Size = 1 := by
    intro character member
    rw [RuleMatch.tokenText] at member
    split at member
    · exact single character (List.mem_of_mem_drop member)
    · exact single character member
  rw [Token.ofText, Piece.token, ← takeBytes_eq_take Token.textLimit singleText]
  rfl

/-- What the tokens of a text and the rest behind its pieces come to. A token without room counts
before the rest, since no token stands behind it. -/
def scanResult (tokens : List Token) (offset : Nat) (rest : List Char) :
    Except ExpressionError (List Token) :=
  match tokens[TokenStream.capacity]? with
  | some token => .error (.tooManyTokens token.offset)
  | none => if rest = [] then .ok tokens else .error (.noMatch offset (String.ofList rest))

section Results

variable {tokens : List Token} {offset : Nat} {rest : List Char}

theorem scanResult_of_some {token : Token} (next : tokens[TokenStream.capacity]? = some token) :
    scanResult tokens offset rest = .error (.tooManyTokens token.offset) := by
  rw [scanResult, next]

theorem scanResult_of_le (few : tokens.length ≤ TokenStream.capacity) :
    scanResult tokens offset rest =
      if rest = [] then .ok tokens else .error (.noMatch offset (String.ofList rest)) := by
  rw [scanResult, List.getElem?_eq_none few]

theorem scanResult_eq_ok_iff {result : List Token} :
    scanResult tokens offset rest = .ok result ↔
      rest = [] ∧ tokens.length ≤ TokenStream.capacity ∧ result = tokens := by
  constructor
  · intro complete
    rw [scanResult] at complete
    split at complete
    · cases complete
    · next none =>
      split at complete
      · next done =>
        exact ⟨done, List.getElem?_eq_none_iff.mp none, (Except.ok.inj complete).symm⟩
      · cases complete
  · rintro ⟨done, few, rfl⟩
    rw [scanResult_of_le few, if_pos done]

theorem scanResult_eq_error_iff {error : ExpressionError} :
    scanResult tokens offset rest = .error error ↔
      (∃ token, tokens[TokenStream.capacity]? = some token ∧
        error = .tooManyTokens token.offset) ∨
      (tokens.length ≤ TokenStream.capacity ∧ rest ≠ [] ∧
        error = .noMatch offset (String.ofList rest)) := by
  constructor
  · intro failed
    rw [scanResult] at failed
    split at failed
    · next token next =>
      cases failed
      exact .inl ⟨token, next, rfl⟩
    · next none =>
      split at failed
      · cases failed
      · next more =>
        cases failed
        exact .inr ⟨List.getElem?_eq_none_iff.mp none, more, rfl⟩
  · rintro (⟨token, next, rfl⟩ | ⟨few, more, rfl⟩)
    · exact scanResult_of_some next
    · rw [scanResult_of_le few, if_neg more]

end Results

/-- A scan gives a token for each kept piece. It fails at the first token that finds no room or, if
there is none, at the rest behind the pieces. -/
theorem outcome_scanFrom (stream : TokenStream) (offset : Nat) (text : List Char) :
    (scanFrom stream offset text).outcome.map TokenStream.tokens =
      scanResult (stream.tokens ++ (keptFrom offset text).map Piece.token)
        (offset + byteLength (textOf (piecesFrom offset text))) (unread text) := by
  induction offset, text using piecesFrom.induct generalizing stream with
  | case1 offset text none =>
    rw [keptFrom_of_none none, piecesFrom_of_none none, unread_of_none none, List.map_nil,
      List.append_nil, scanResult_of_le stream.length_le]
    by_cases done : text = []
    · rw [if_pos done, done, outcome_scanFrom_nil]
      rfl
    · rw [if_neg done, outcome_scanFrom_of_none done none]
      rfl
  | case2 offset text found success ih =>
    have reached : offset + byteLength found.lexeme + byteLength (textOf (piecesFrom
        (offset + byteLength found.lexeme) found.rest)) =
          offset + byteLength (textOf (piecesFrom offset text)) := by
      rw [piecesFrom_of_some success, textOf_cons, byteLength_append, Nat.add_assoc]
    rw [reached, ← unread_of_some success] at ih
    by_cases blank : found.rule.kind = .whitespace
    · rw [outcome_scanFrom_of_blank ⟨_, _, success, blank⟩, ih, keptFrom_of_blank success blank]
    · rw [outcome_scanFrom_of_reads ⟨_, _, success, rfl⟩ blank, ofText_eq_token success,
        keptFrom_of_token success blank, List.map_cons]
      -- the longer stream and the later tokens are together what the stream and all tokens are
      cases pushed : stream.push? (Piece.token ⟨offset, found⟩) with
      | some longer =>
        have added := ((TokenStream.push?_eq_some_iff ..).mp pushed).2
        have later := ih longer
        rw [added, List.append_assoc, List.singleton_append] at later
        exact later
      | none =>
        exact (scanResult_of_some (TokenStream.getElem?_of_push?_eq_none pushed _)).symm

theorem TokenStream.tokens_inj {left right : TokenStream} :
    left.tokens = right.tokens ↔ left = right := by
  constructor
  · intro same
    cases left
    cases right
    cases same
    rfl
  · exact congrArg tokens

theorem tokenize_map_tokens (expression : String) :
    (tokenize expression).map TokenStream.tokens =
      scanResult ((keptFrom 0 expression.toList).map Piece.token)
        (byteLength (textOf (piecesFrom 0 expression.toList))) (unread expression.toList) := by
  have outcome := outcome_scanFrom .empty 0 expression.toList
  rwa [Nat.zero_add] at outcome

theorem tokenize_eq_ok_iff (expression : String) (stream : TokenStream) :
    tokenize expression = .ok stream ↔
      unread expression.toList = [] ∧ (keptFrom 0 expression.toList).length ≤ 32 ∧
        stream.tokens = (keptFrom 0 expression.toList).map Piece.token := by
  have outcome := tokenize_map_tokens expression
  have result : tokenize expression = .ok stream ↔
      (tokenize expression).map TokenStream.tokens = .ok stream.tokens := by
    cases tokenize expression with
    | error error => exact ⟨fun failed => (nomatch failed), fun failed => (nomatch failed)⟩
    | ok other => simp only [Except.map, Except.ok.injEq, TokenStream.tokens_inj]
  rw [result, outcome, scanResult_eq_ok_iff, List.length_map]
  rfl

theorem tokenize_eq_error_iff (expression : String) (error : ExpressionError) :
    tokenize expression = .error error ↔
      (∃ piece, (keptFrom 0 expression.toList)[32]? = some piece ∧
        error = .tooManyTokens piece.offset) ∨
      ((keptFrom 0 expression.toList).length ≤ 32 ∧ unread expression.toList ≠ [] ∧
        error = .noMatch (byteLength (textOf (piecesFrom 0 expression.toList)))
          (String.ofList (unread expression.toList))) := by
  have outcome := tokenize_map_tokens expression
  have result : tokenize expression = .error error ↔
      (tokenize expression).map TokenStream.tokens = .error error := by
    cases tokenize expression with
    | error other => simp only [Except.map, Except.error.injEq]
    | ok stream => exact ⟨fun failed => (nomatch failed), fun failed => (nomatch failed)⟩
  rw [result, outcome, scanResult_eq_error_iff, List.length_map, List.getElem?_map]
  apply or_congr _ .rfl
  constructor
  · rintro ⟨token, next, rfl⟩
    obtain ⟨piece, found, rfl⟩ := Option.map_eq_some_iff.mp next
    exact ⟨piece, found, rfl⟩
  · rintro ⟨piece, found, rfl⟩
    exact ⟨piece.token, Option.map_eq_some_iff.mpr ⟨piece, found, rfl⟩, rfl⟩

/-- The pieces follow each other from the start of the text to the rest, each is what the rules find
where it stands, and no rule matches the rest. -/
structure IsCut (text : List Char) (pieces : List Piece) (rest : List Char) : Prop where
  whole : textOf pieces ++ rest = text
  ends : findRule? rest = none
  places : ∀ before piece after, pieces = before ++ piece :: after →
    piece.offset = byteLength (textOf before) ∧
      findRule? (textOf (piece :: after) ++ rest) = some piece.found

theorem isCut_piecesFrom (text : List Char) : IsCut text (piecesFrom 0 text) (unread text) := by
  constructor
  case whole => exact textOf_piecesFrom 0 text
  case ends => exact findRule?_unread text
  case places =>
    intro before piece after split
    obtain ⟨starts, found⟩ := piece_of_piecesFrom split
    exact ⟨by rw [starts, Nat.zero_add], found⟩

/-- An expression is cut into pieces without loss. The tokens are those of the kept pieces if there
is no rest and no more than 32 pieces are kept. Otherwise the error is about the 33rd of these
pieces if there is one and about the rest if there is none. Pieces consist of characters of one byte
and start at increasing offsets, and between two kept pieces next to each other there are only
spaces and tabs. -/
theorem tokenize_cuts (expression : String) :
    IsCut expression.toList (piecesFrom 0 expression.toList) (unread expression.toList) ∧
      let pieces := piecesFrom 0 expression.toList
      let rest := unread expression.toList
      let kept := pieces.filter Piece.isKept
      (∀ stream, tokenize expression = .ok stream ↔
        rest = [] ∧ kept.length ≤ 32 ∧ stream.tokens = kept.map Piece.token) ∧
      (∀ error, tokenize expression = .error error ↔
        (∃ piece, kept[32]? = some piece ∧ error = .tooManyTokens piece.offset) ∨
        (kept.length ≤ 32 ∧ rest ≠ [] ∧
          error = .noMatch (byteLength (textOf pieces)) (String.ofList rest))) ∧
      (kept.Pairwise fun first second => first.offset < second.offset) ∧
      (∀ front first second back, kept = front ++ first :: second :: back →
        ∃ gap, (∀ character ∈ gap, character = ' ' ∨ character = '\t') ∧
          first.found.rest = gap ++ (second.found.lexeme ++ second.found.rest) ∧
          second.offset = first.offset + byteLength first.found.lexeme + byteLength gap) ∧
      ∀ piece ∈ pieces, ∀ character ∈ piece.found.lexeme, character.utf8Size = 1 := by
  refine ⟨isCut_piecesFrom expression.toList, tokenize_eq_ok_iff expression,
    tokenize_eq_error_iff expression, ?increasing, ?gaps, ?single⟩
  case increasing => exact (pairwise_offset_piecesFrom ..).filter _
  case gaps =>
    intro front first second back split
    obtain ⟨gap, blanks, follows⟩ := gap_of_keptFrom split
    exact ⟨gap, fun character member => eq_of_isBlank (blanks character member), follows⟩
  case single =>
    intro piece member
    obtain ⟨before, after, split⟩ := List.mem_iff_append.mp member
    exact utf8Size_of_mem_lexeme (piece_of_piecesFrom split).2

end GuestProbe
