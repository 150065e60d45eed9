import GuestProbe.Expression.Scan
import GuestProbe.Proofs.Token.Spelling
import GuestProbe.Token.Unary

/-! # Scanning piece by piece

What the rules read at the start of a text decides the next step of a scan: blanks are passed over
(`outcome_scanFrom_of_blank`) and any other piece becomes the next token if the stream has room for
it (`outcome_scanFrom_of_reads`). `outcome_scanFrom_written` combines the two steps for a token with
blanks before it.
-/

namespace GuestProbe

open Text

/-- An event that may or may not be recorded does not change the outcome. -/
theorem Traced.outcome_ite_record {Event Failure Value : Type} (condition : Prop)
    [Decidable condition] (event : Event) (next : Traced Event Failure Value) :
    (if condition then do .record event; next else next).outcome = next.outcome := by
  by_cases holds : condition
  · rw [if_pos holds]
    rfl
  · rw [if_neg holds]

theorem Reads.ne_nil {text lexeme rest : List Char} {kind : TokenKind}
    (reads : Reads text kind lexeme rest) : text ≠ [] := by
  obtain ⟨index, rule, found, -⟩ := reads
  have split := findRule?_append found
  have more := findRule?_ne_nil found
  rintro rfl
  exact more (List.append_eq_nil_iff.mp split.symm).1

theorem outcome_scanFrom_nil (stream : TokenStream) (offset : Nat) :
    (scanFrom stream offset []).outcome = .ok stream := by
  rw [scanFrom, if_pos rfl, Traced.outcome_pure]

/-- The scan passes over blanks. -/
theorem outcome_scanFrom_of_blank {stream : TokenStream} {offset : Nat}
    {text lexeme rest : List Char} (reads : Reads text .whitespace lexeme rest) :
    (scanFrom stream offset text).outcome =
      (scanFrom stream (offset + byteLength lexeme) rest).outcome := by
  have more := reads.ne_nil
  obtain ⟨index, rule, found, isBlank⟩ := reads
  rw [scanFrom, if_neg more]
  split
  · next failed => cases failed.symm.trans found
  · next match? success =>
    obtain rfl := Option.some.inj (success.symm.trans found)
    simp only [RuleMatch.token?, isBlank, if_true, Traced.outcome_bind, Traced.outcome_record]
    rfl

/-- The text of the token for a piece of the given kind. -/
def TokenKind.tokenText (kind : TokenKind) (lexeme : List Char) : List Char :=
  if kind = .register then lexeme.drop 1 else lexeme

/-- The scan makes a token of every other piece. -/
theorem outcome_scanFrom_of_reads {stream : TokenStream} {offset : Nat}
    {text lexeme rest : List Char} {kind : TokenKind} (reads : Reads text kind lexeme rest)
    (notBlank : kind ≠ .whitespace) :
    (scanFrom stream offset text).outcome =
      match stream.push? (Token.ofText kind kind.precedence (kind.tokenText lexeme) offset) with
      | none => .error (.tooManyTokens offset)
      | some longer => (scanFrom longer (offset + byteLength lexeme) rest).outcome := by
  have more := reads.ne_nil
  obtain ⟨index, rule, found, rfl⟩ := reads
  rw [scanFrom, if_neg more]
  split
  · next failed => cases failed.symm.trans found
  · next match? success =>
    obtain rfl := Option.some.inj (success.symm.trans found)
    simp only [RuleMatch.token?, if_neg notBlank, Traced.outcome_bind, Traced.outcome_record]
    rw [Except.bind, Traced.outcome_ite_record]
    simp only [RuleMatch.tokenText, TokenKind.tokenText]
    generalize stream.push? _ = pushed
    cases pushed <;> rfl

/-! ## Written tokens -/

namespace Token

/-- The token's text is one of its kind and not too long to be kept. -/
structure Spelled (token : Token) : Prop where
  spells : token.kind.Spells token.text.toList
  fits : byteLength token.text.toList ≤ textLimit

/-- The token as it is written in an expression. -/
def spelling (token : Token) : List Char :=
  token.kind.written token.text.toList

/-- The token as the rules alone classify it. -/
def unresolved (token : Token) : Token :=
  { token with kind := token.kind.unresolved, precedence := token.kind.unresolved.precedence }

theorem ofText_spelling {token : Token}
    (fits : byteLength token.text.toList ≤ textLimit) :
    ofText token.kind.unresolved token.kind.unresolved.precedence
      (token.kind.unresolved.tokenText token.spelling) token.offset = token.unresolved := by
  have text : token.kind.unresolved.tokenText token.spelling = token.text.toList := by
    cases kind : token.kind <;> simp [TokenKind.tokenText, spelling, TokenKind.written, kind,
      TokenKind.unresolved]
  rw [text, ofText, takeBytes_of_le _ _ fits, String.ofList_toList]
  rfl

end Token

theorem isBlank_of_isAsciiWordCharacter {character : Char}
    (isWord : isAsciiWordCharacter character = true) : isBlank character = false := by
  rw [← Bool.not_eq_true]
  intro blank
  rcases eq_of_isBlank blank with rfl | rfl <;> cases isWord

/-- No spelling starts with a blank. -/
theorem TokenKind.head?_written {kind : TokenKind} {text : List Char} (spells : kind.Spells text)
    (rest : List Char) : (kind.written text ++ rest).head?.any isBlank = false := by
  have ofWord (word : IsWord text) : (text ++ rest).head?.any isBlank = false := by
    obtain ⟨first, tail, rfl, isWord⟩ := word.exists_cons
    exact isBlank_of_isAsciiWordCharacter isWord
  cases kind with
  | decimal => exact ofWord (IsDecimal.isWord spells)
  | hexadecimal => exact ofWord (IsHexadecimal.isWord spells)
  | symbol => exact ofWord spells.1
  | register => rfl
  | whitespace => cases spells
  | or | and | equal | notEqual | plus | minus | star | slash | not | openParen | closeParen |
    dereference | negate =>
    obtain rfl := Option.some.inj spells
    rfl

/-- The scan reads a written token and the blanks before it. -/
theorem outcome_scanFrom_written (stream : TokenStream) {offset : Nat} {gap rest : List Char}
    {token : Token} (blank : ∀ character ∈ gap, isBlank character = true)
    (starts : token.offset = offset + byteLength gap) (spelled : token.Spelled)
    (ends : token.kind.EndsBefore rest) (room : stream.tokens.length < TokenStream.capacity) :
    ∃ longer, longer.tokens = stream.tokens ++ [token.unresolved] ∧
      (scanFrom stream offset (gap ++ (token.spelling ++ rest))).outcome =
        (scanFrom longer (token.offset + byteLength token.spelling) rest).outcome := by
  have passed : (scanFrom stream offset (gap ++ (token.spelling ++ rest))).outcome =
      (scanFrom stream token.offset (token.spelling ++ rest)).outcome := by
    by_cases none : gap = []
    · subst none
      rw [starts]
      rfl
    · have reads := reads_blank none blank (TokenKind.head?_written spelled.spells rest)
      rw [Token.spelling, outcome_scanFrom_of_blank reads, starts]
  have notBlank : token.kind.unresolved ≠ .whitespace := by
    intro same
    have spells := spelled.spells
    cases kind : token.kind <;> rw [kind] at same spells <;> cases same
    cases spells
  obtain ⟨longer, pushed⟩ : ∃ longer, stream.push? token.unresolved = some longer := by
    rw [TokenStream.push?, dif_pos room]
    exact ⟨_, rfl⟩
  refine ⟨longer, ((TokenStream.push?_eq_some_iff ..).mp pushed).2, ?_⟩
  rw [passed, Token.spelling,
    outcome_scanFrom_of_reads (reads_written spelled.spells ends) notBlank]
  have made := Token.ofText_spelling spelled.fits
  rw [Token.spelling] at made
  rw [made, pushed]

/-! ## Texts of a single token -/

/-- A text that the rules read as one piece makes one token. -/
theorem tokenize_of_reads {text : List Char} {kind : TokenKind} (reads : Reads text kind text [])
    (notBlank : kind ≠ .whitespace) :
    ∃ stream, tokenize (String.ofList text) = .ok stream ∧
      stream.tokens = [Token.ofText kind kind.precedence (kind.tokenText text) 0] := by
  obtain ⟨longer, pushed⟩ : ∃ longer, TokenStream.empty.push?
      (Token.ofText kind kind.precedence (kind.tokenText text) 0) = some longer :=
    ⟨_, dif_pos (by decide)⟩
  refine ⟨longer, ?_, ((TokenStream.push?_eq_some_iff ..).mp pushed).2⟩
  rw [tokenize, scan, String.toList_ofList, outcome_scanFrom_of_reads reads notBlank, pushed]
  exact outcome_scanFrom_nil ..

end GuestProbe
