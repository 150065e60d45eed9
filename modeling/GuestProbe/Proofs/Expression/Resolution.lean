import GuestProbe.Proofs.Expression.Tokens
import GuestProbe.Proofs.Guarded.Scanning
import GuestProbe.Proofs.Token.Lookahead

/-! # Unary operators told at once

The tokens of a stream are decided from left to right, each by the kind that the token before it
has by then. A token that turns out to be a unary operator ends no operand, and neither did it
before, so every decision can be made from the kinds that the rules give (`resolveUnaryAfter_eq`)
and a second pass changes nothing (`resolveUnaryAfter_resolveUnaryAfter`).

In an expression that is cut into tokens, each `*` and each `-` is a token, and no other token can
become a unary operator of this kind (`resolveUnary_at_once`).
-/

namespace GuestProbe

open Text

/-- The token as a unary operator, if there is one that is written like it. -/
def Token.asUnary (token : Token) : Token :=
  match token.kind with
  | .star => { token with kind := .dereference, precedence := 6 }
  | .minus => { token with kind := .negate, precedence := 6 }
  | _ => token

/-- Whether the token at an index follows a token that can end an operand. A token of the given
kind, if any, stands before the first one. -/
def followsOperand (previous : Option TokenKind) (tokens : List Token) : Nat → Bool
  | 0 => previous.any TokenKind.endsOperand
  | index + 1 => tokens[index]?.any fun token => token.kind.endsOperand

/-- All tokens decided at once, each by what stands before it in the given sequence. -/
def resolvedAtOnce (previous : Option TokenKind) (tokens : List Token) : List Token :=
  tokens.mapIdx fun index token =>
    if followsOperand previous tokens index then token else token.asUnary

/-! ## Single tokens -/

namespace Token

theorem resolveUnary_eq (token : Token) (previous : Option TokenKind) :
    token.resolveUnary previous =
      if previous.any TokenKind.endsOperand then token else token.asUnary := by
  rcases token with ⟨kind, precedence, text, offset⟩
  cases kind <;> first | rfl | exact (ite_self _).symm

theorem asUnary_asUnary (token : Token) : token.asUnary.asUnary = token.asUnary := by
  rcases token with ⟨kind, precedence, text, offset⟩
  cases kind <;> rfl

/-- Neither a token that is written like a unary operator nor that operator ends an operand. -/
theorem endsOperand_asUnary (token : Token) :
    token.asUnary.kind.endsOperand = token.kind.endsOperand := by
  rcases token with ⟨kind, precedence, text, offset⟩
  cases kind <;> rfl

theorem offset_asUnary (token : Token) : token.asUnary.offset = token.offset := by
  rcases token with ⟨kind, precedence, text, offset⟩
  cases kind <;> rfl

theorem endsOperand_resolveUnary (token : Token) (previous : Option TokenKind) :
    (token.resolveUnary previous).kind.endsOperand = token.kind.endsOperand := by
  rw [resolveUnary_eq]
  split
  · rfl
  · exact token.endsOperand_asUnary

end Token

/-! ## Sequences -/

/-- The kind before a sequence counts only for whether it ends an operand. -/
theorem resolvedAtOnce_congr {previous other : Option TokenKind}
    (same : previous.any TokenKind.endsOperand = other.any TokenKind.endsOperand)
    (tokens : List Token) : resolvedAtOnce previous tokens = resolvedAtOnce other tokens := by
  have follows : followsOperand previous tokens = followsOperand other tokens := by
    funext index
    cases index with
    | zero => exact same
    | succ index => rfl
  rw [resolvedAtOnce, resolvedAtOnce, follows]

theorem resolvedAtOnce_cons (previous : Option TokenKind) (token : Token) (rest : List Token) :
    resolvedAtOnce previous (token :: rest) =
      token.resolveUnary previous :: resolvedAtOnce (some token.kind) rest := by
  have later : ∀ index, followsOperand previous (token :: rest) (index + 1) =
      followsOperand (some token.kind) rest index := by
    intro index
    cases index <;> rfl
  rw [resolvedAtOnce, List.mapIdx_cons, token.resolveUnary_eq]
  simp only [later]
  rfl

theorem map_offset_resolvedAtOnce (previous : Option TokenKind) (tokens : List Token) :
    (resolvedAtOnce previous tokens).map Token.offset = tokens.map Token.offset := by
  induction tokens generalizing previous with
  | nil => rfl
  | cons token rest ih =>
    rw [resolvedAtOnce_cons, List.map_cons, List.map_cons, ih,
      (token.resolveUnary_written previous).1]

/-- Deciding from left to right comes to the same as deciding at once. -/
theorem resolveUnaryAfter_eq (previous : Option TokenKind) (tokens : List Token) :
    resolveUnaryAfter previous tokens = resolvedAtOnce previous tokens := by
  induction tokens generalizing previous with
  | nil => rfl
  | cons token rest ih =>
    have same : (some (token.resolveUnary previous).kind).any TokenKind.endsOperand =
        (some token.kind).any TokenKind.endsOperand := token.endsOperand_resolveUnary previous
    rw [resolveUnaryAfter, ih, resolvedAtOnce_cons, resolvedAtOnce_congr same]

/-- Tokens that have been decided stay as they are. -/
theorem resolveUnaryAfter_resolveUnaryAfter (previous : Option TokenKind) (tokens : List Token) :
    resolveUnaryAfter previous (resolveUnaryAfter previous tokens) =
      resolveUnaryAfter previous tokens := by
  induction tokens generalizing previous with
  | nil => rfl
  | cons token rest ih =>
    have decided : (token.resolveUnary previous).resolveUnary previous =
        token.resolveUnary previous := by
      rw [Token.resolveUnary_eq, Token.resolveUnary_eq]
      split
      · rfl
      · exact token.asUnary_asUnary
    simp only [resolveUnaryAfter, decided, ih]

/-! ## Tokens of an expression -/

section Signs

variable {text : List Char} {found : RuleMatch}

theorem not_whitespace_of_mem (success : findRule? text = some found) {sign : Char}
    (isSign : sign = '*' ∨ sign = '-') (member : sign ∈ found.lexeme) :
    found.rule.kind ≠ .whitespace := by
  intro isWhitespace
  have blank := isBlank_of_mem_lexeme success isWhitespace sign member
  rcases isSign with rfl | rfl <;> cases blank

/-- A piece that has a `*` or a `-` in it is this sign. -/
theorem lexeme_of_mem (success : findRule? text = some found) {sign : Char}
    (isSign : sign = '*' ∨ sign = '-') (member : sign ∈ found.lexeme) : found.lexeme = [sign] := by
  have notWord : isAsciiWordCharacter sign = false := by rcases isSign with rfl | rfl <;> rfl
  have refuse (word : IsWord found.lexeme) : found.lexeme = [sign] := by
    cases notWord.symm.trans (word.2 sign member)
  have ofSign (characters : List Char) (stands : found.rule.kind.sign? = some characters)
      (alone : ∀ sign ∈ characters, sign = '*' ∨ sign = '-' → characters = [sign]) :
      found.lexeme = [sign] := by
    rw [lexeme_of_sign? success stands] at member ⊢
    exact alone sign member isSign
  cases kind : found.rule.kind with
  | whitespace => exact absurd kind (not_whitespace_of_mem success isSign member)
  | decimal => exact refuse (isDecimal_lexeme success kind).isWord
  | hexadecimal => exact refuse (isHexadecimal_lexeme success kind).isWord
  | symbol => exact refuse (isWord_lexeme success kind)
  | register =>
    obtain ⟨name, lexeme, -, letters⟩ := lexeme_of_register success kind
    rw [lexeme] at member
    rcases List.mem_cons.mp member with rfl | inName
    · rcases isSign with same | same <;> cases same
    · cases notWord.symm.trans (isAsciiWordCharacter_of_isAlpha (letters sign inName))
  | or | and | equal | notEqual | plus | minus | star | slash | not | openParen | closeParen |
    dereference | negate => exact ofSign _ (by rw [kind]; rfl) (by simp)

/-- In a text that is cut to its end, each `*` and each `-` is a piece. -/
theorem exists_piece_of_sign {offset : Nat} {text : List Char} (whole : unread text = [])
    {sign : Char} (isSign : sign = '*' ∨ sign = '-') {before after : List Char}
    (split : text = before ++ sign :: after) :
    ∃ piece ∈ keptFrom offset text, piece.offset = offset + byteLength before := by
  induction offset, text using piecesFrom.induct generalizing before with
  | case1 offset text none =>
    rw [unread_of_none none, split] at whole
    cases (List.append_eq_nil_iff.mp whole).2
  | case2 offset text found success ih =>
    rw [unread_of_some success] at whole
    have later {between : List Char} (rest : found.rest = between ++ sign :: after) :
        ∃ piece ∈ keptFrom offset text,
          piece.offset = offset + byteLength (found.lexeme ++ between) := by
      obtain ⟨piece, kept, place⟩ := ih whole rest
      refine ⟨piece, ?_, by rw [place, byteLength_append, Nat.add_assoc]⟩
      by_cases isWhitespace : found.rule.kind = .whitespace
      · rwa [keptFrom_of_blank success isWhitespace]
      · rw [keptFrom_of_token success isWhitespace]
        exact List.mem_cons_of_mem _ kept
    rcases List.append_eq_append_iff.mp ((findRule?_append success).symm.trans split) with
      ⟨between, rfl, rest⟩ | ⟨tail, lexeme, rest⟩
    · exact later rest
    · cases tail with
      | nil =>
        rw [List.append_nil] at lexeme
        rw [← lexeme, ← List.append_nil found.lexeme]
        exact later rest.symm
      | cons first tail =>
        -- the sign is in the first piece, so that it is this piece
        cases rest
        have member : sign ∈ found.lexeme := by simp [lexeme]
        have alone := (lexeme_of_mem success isSign member).symm.trans lexeme
        obtain rfl : before = [] := by
          cases before with
          | nil => rfl
          | cons other before => simp at alone
        rw [keptFrom_of_token success (not_whitespace_of_mem success isSign member)]
        exact ⟨_, List.mem_cons_self, rfl⟩

/-- The rules find the kind of a `*` or of a `-` exactly where this sign stands. -/
theorem kind_eq_iff_head? (success : findRule? text = some found) {kind : TokenKind} {sign : Char}
    (isSign : (kind = .star ∧ sign = '*') ∨ (kind = .minus ∧ sign = '-')) :
    found.rule.kind = kind ↔ text.head? = some sign := by
  have spelled : kind.sign? = some [sign] := by
    rcases isSign with ⟨rfl, rfl⟩ | ⟨rfl, rfl⟩ <;> rfl
  constructor
  · rintro rfl
    rw [findRule?_append success, lexeme_of_sign? success spelled]
    rfl
  · intro starts
    obtain ⟨rest, rfl⟩ := List.head?_eq_some_iff.mp starts
    have reads : Reads (sign :: rest) kind [sign] rest := by
      rcases isSign with ⟨rfl, rfl⟩ | ⟨rfl, rfl⟩ <;> exact ⟨_, _, rfl, rfl⟩
    exact (Reads.unique ⟨_, _, success, rfl⟩ reads).1

end Signs

/-- A token of an expression stands where the rules find its kind. -/
theorem source_of_mem {expression : String} {stream : TokenStream}
    (success : tokenize expression = .ok stream) {token : Token} (member : token ∈ stream.tokens) :
    ∃ before after found, expression.toList = before ++ after ∧ token.offset = byteLength before ∧
      findRule? after = some found ∧ token.kind = found.rule.kind := by
  have scanned := tokenize_cases expression
  rw [success] at scanned
  obtain ⟨all⟩ := scanned
  rw [all] at member
  obtain ⟨before, after, found, split, here, made⟩ := exists_piece_of_mem_tokensFrom member
  obtain ⟨place, kind, -⟩ := heads_of_token? here made
  exact ⟨before, after, found, split, by rw [place, Nat.zero_add], here, kind⟩

/-- The kinds that a token can have once it has been decided, if it was not decided before. -/
theorem Token.kind_asUnary_iff {token : Token}
    (undecided : token.kind ≠ .dereference ∧ token.kind ≠ .negate) (ended : Bool) :
    let decided := if ended then token else token.asUnary
    (decided.kind = .star ↔ token.kind = .star ∧ ended = true) ∧
      (decided.kind = .minus ↔ token.kind = .minus ∧ ended = true) ∧
      (decided.kind = .dereference ↔ token.kind = .star ∧ ended = false) ∧
      (decided.kind = .negate ↔ token.kind = .minus ∧ ended = false) := by
  rcases token with ⟨kind, precedence, text, offset⟩
  cases ended <;> cases kind <;> simp_all [asUnary]

/-- Telling unary operators from binary ones from left to right, in place, comes to the same as
deciding all tokens at once by the kinds before them: a `*` or a `-` becomes a dereference or a
negation, of precedence 6, unless it follows a token that can end an operand, and nothing else
changes. Doing so a second time changes nothing. If the tokens are those of an expression, they are
binary operators of these two kinds exactly at each `*` and each `-` behind such a token, and unary
ones exactly at each of the others. -/
theorem resolveUnary_at_once (stream : TokenStream) :
    Guarded.resolveInPlace stream.tokens = pure (resolvedAtOnce none stream.tokens) ∧
    stream.resolveUnary.tokens = resolvedAtOnce none stream.tokens ∧
    stream.resolveUnary.resolveUnary = stream.resolveUnary ∧
    ∀ expression, tokenize expression = .ok stream →
      (∀ index token, stream.resolveUnary.tokens[index]? = some token →
        let follows := followsOperand none stream.tokens index
        ∃ before after, expression.toList = before ++ after ∧ token.offset = byteLength before ∧
          (token.kind = .star ↔ after.head? = some '*' ∧ follows = true) ∧
          (token.kind = .minus ↔ after.head? = some '-' ∧ follows = true) ∧
          (token.kind = .dereference ↔ after.head? = some '*' ∧ follows = false) ∧
          (token.kind = .negate ↔ after.head? = some '-' ∧ follows = false)) ∧
      ∀ before sign after, expression.toList = before ++ sign :: after →
        (sign = '*' ∨ sign = '-') →
          ∃ token ∈ stream.resolveUnary.tokens, token.offset = byteLength before := by
  have atOnce : stream.resolveUnary.tokens = resolvedAtOnce none stream.tokens :=
    resolveUnaryAfter_eq none stream.tokens
  refine ⟨?inPlace, atOnce, ?twice, fun expression success => ⟨?kinds, ?signs⟩⟩
  case inPlace => rw [Guarded.resolveInPlace_eq, atOnce]
  case twice =>
    simp only [TokenStream.resolveUnary, resolveUnaryAfter_resolveUnaryAfter]
  case kinds =>
    intro index token found follows
    rw [atOnce, resolvedAtOnce, List.getElem?_mapIdx] at found
    obtain ⟨original, here, rfl⟩ := Option.map_eq_some_iff.mp found
    obtain ⟨before, after, piece, split, place, matched, kind⟩ :=
      source_of_mem success (List.mem_of_getElem? here)
    have table : ∀ rule ∈ Rule.table, rule.kind ≠ .dereference ∧ rule.kind ≠ .negate := by decide
    have undecided := table _ (findRule?_eq_some matched).1
    rw [← kind] at undecided
    refine ⟨before, after, split, ?_, ?_⟩
    · rw [← place]
      split
      · rfl
      · exact original.offset_asUnary
    · rw [← kind_eq_iff_head? matched (.inl ⟨rfl, rfl⟩), ← kind_eq_iff_head? matched (.inr ⟨rfl, rfl⟩),
        ← kind]
      exact original.kind_asUnary_iff undecided follows
  case signs =>
    intro before sign after split isSign
    obtain ⟨whole, -, tokens⟩ := (tokenize_eq_ok_iff expression stream).mp success
    obtain ⟨piece, kept, place⟩ : ∃ piece ∈ keptFrom 0 expression.toList,
        piece.offset = 0 + byteLength before := exists_piece_of_sign whole isSign split
    have member : byteLength before ∈ stream.tokens.map Token.offset := by
      rw [tokens, List.map_map]
      exact List.mem_map.mpr ⟨piece, kept, place.trans (Nat.zero_add _)⟩
    rw [atOnce]
    rw [← map_offset_resolvedAtOnce none] at member
    exact List.mem_map.mp member

end GuestProbe
