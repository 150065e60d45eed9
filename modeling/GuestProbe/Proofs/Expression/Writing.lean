import GuestProbe.Proofs.Expression.Grammar
import GuestProbe.Proofs.Expression.Scanning

/-! # Reading what was written

An expression is written by putting the spellings of its tokens one after the other, with any number
of blanks before, between and after them (`Written`). The spellings do not tell a negation from a
subtraction, nor a dereference from a multiplication, and without blanks one spelling could run into
the next.

Neither matters in an expression of the grammar, because operands and operators alternate in it
(`Derives.operandEnds?_eq`): a word is always followed by an operator or a parenthesis, and a `*` or
`-` is unary exactly where an operand is due. So the tokens are read back as they were written, at
the offsets at which they were written (`tokenize_written`).
-/

namespace GuestProbe

open Text

/-! ## Alternation of operands and operators -/

/-- A token of this kind can be the first one of an operand. -/
def TokenKind.startsOperand (kind : TokenKind) : Bool :=
  kind.isOperand || kind.isUnary || kind == .openParen

/-- Whether the last of the tokens ends an operand, if they follow something that does or does not.
There is no answer if an operand starts after the end of another one, or if an operator that needs
an operand before it has none. -/
def operandEnds? : Bool → List Token → Option Bool
  | ended, [] => some ended
  | ended, token :: rest =>
      if token.kind.startsOperand = ended then none else operandEnds? token.kind.endsOperand rest

theorem operandEnds?_cons_eq_some_iff (ended last : Bool) (token : Token) (rest : List Token) :
    operandEnds? ended (token :: rest) = some last ↔
      token.kind.startsOperand = !ended ∧ operandEnds? token.kind.endsOperand rest = some last := by
  rw [operandEnds?]
  cases token.kind.startsOperand <;> cases ended <;> simp

theorem operandEnds?_append (ended : Bool) (left right : List Token) :
    operandEnds? ended (left ++ right) =
      (operandEnds? ended left).bind fun ended => operandEnds? ended right := by
  induction left generalizing ended with
  | nil => rfl
  | cons token left ih =>
    rw [List.cons_append, operandEnds?, operandEnds?]
    split
    · rfl
    · exact ih _

theorem TokenKind.alternation_of_isOperand {kind : TokenKind} (isOperand : kind.isOperand = true) :
    kind.startsOperand = true ∧ kind.endsOperand = true := by
  cases kind <;> cases isOperand <;> decide

theorem UnaryOperator.alternation_kind (operator : UnaryOperator) :
    operator.kind.startsOperand = true ∧ operator.kind.endsOperand = false := by
  cases operator <;> decide

theorem BinaryOperator.alternation_kind (operator : BinaryOperator) :
    operator.kind.startsOperand = false ∧ operator.kind.endsOperand = false := by
  cases operator <;> decide

/-- Operands and operators alternate in an expression. -/
theorem Derives.operandEnds?_eq {level : Nat} {tokens : List Token} {tree : SyntaxTree}
    (derivation : Derives level tokens tree) : operandEnds? false tokens = some true := by
  induction derivation with
  | operand isOperand =>
    obtain ⟨starts, ends⟩ := TokenKind.alternation_of_isOperand isOperand
    rw [operandEnds?_cons_eq_some_iff, ends]
    exact ⟨starts, rfl⟩
  | grouped opens closes _ ih =>
    rw [List.cons_append, operandEnds?_cons_eq_some_iff, opens, operandEnds?_append]
    refine ⟨rfl, ?_⟩
    have inside : operandEnds? TokenKind.openParen.endsOperand _ = some true := ih
    rw [inside, Option.bind_some, operandEnds?_cons_eq_some_iff, closes]
    exact ⟨rfl, rfl⟩
  | @unary _ operator _ _ stands _ ih =>
    obtain ⟨starts, ends⟩ := operator.alternation_kind
    rw [operandEnds?_cons_eq_some_iff, stands, ends]
    exact ⟨starts, ih⟩
  | @binary _ operator _ _ _ _ stands _ _ ihLeft ihRight =>
    obtain ⟨starts, ends⟩ := operator.alternation_kind
    rw [operandEnds?_append, ihLeft, Option.bind_some, operandEnds?_cons_eq_some_iff, stands, ends]
    exact ⟨starts, ihRight⟩
  | looser _ ih => exact ih

/-! ## Resolving what the spelling leaves open -/

/-- A token that stands where its kind is due is told by the token before it. -/
theorem Token.resolveUnary_unresolved {token : Token} (ranked : token.Ranked)
    {previous : Option TokenKind}
    (due : token.kind.startsOperand = !previous.any TokenKind.endsOperand) :
    token.unresolved.resolveUnary previous = token := by
  rcases token with ⟨kind, precedence, text, offset⟩
  obtain rfl : precedence = kind.precedence := ranked
  cases kind with
  | minus | star =>
    have ended : previous.any TokenKind.endsOperand = true := by
      rwa [eq_comm, Bool.not_eq_eq_eq_not] at due
    exact if_pos ended
  | negate | dereference =>
    have ended : ¬previous.any TokenKind.endsOperand = true := by
      rw [eq_comm, Bool.not_eq_eq_eq_not] at due
      rw [due]
      exact Bool.false_ne_true
    exact if_neg ended
  | _ => rfl

theorem resolveUnaryAfter_unresolved {tokens : List Token} (ranked : ∀ token ∈ tokens, token.Ranked)
    {previous : Option TokenKind} {last : Bool}
    (alternate : operandEnds? (previous.any TokenKind.endsOperand) tokens = some last) :
    resolveUnaryAfter previous (tokens.map Token.unresolved) = tokens := by
  induction tokens generalizing previous with
  | nil => rfl
  | cons token tokens ih =>
    obtain ⟨due, later⟩ := (operandEnds?_cons_eq_some_iff ..).mp alternate
    have resolved := Token.resolveUnary_unresolved (ranked token List.mem_cons_self) due
    have rest := ih (fun token member => ranked token (List.mem_cons_of_mem _ member))
      (show operandEnds? ((some token.kind).any TokenKind.endsOperand) tokens = some last
        from later)
    rw [List.map_cons, resolveUnaryAfter, resolved, rest]

/-! ## Written expressions -/

/-- The tokens are written in the text, which starts at the given offset: each at its own offset,
with blanks before, between and after them. -/
inductive Written : Nat → List Token → List Char → Prop where
  | nil {offset : Nat} {gap : List Char} (blank : ∀ character ∈ gap, isBlank character = true) :
      Written offset [] gap
  | cons {offset : Nat} {gap rest : List Char} {token : Token} {tokens : List Token}
      (blank : ∀ character ∈ gap, isBlank character = true)
      (starts : token.offset = offset + byteLength gap)
      (later : Written (token.offset + byteLength token.spelling) tokens rest) :
      Written offset (token :: tokens) (gap ++ (token.spelling ++ rest))

/-- The text does not continue a word before it, if it follows an operand, or else an operator. -/
def Separates (ended : Bool) (text : List Char) : Prop :=
  text.head?.any (if ended then isWordCharacter else (· == '=')) = false

theorem TokenKind.endsBefore_of_separates {kind : TokenKind} {rest : List Char}
    (separates : Separates kind.endsOperand rest) : kind.EndsBefore rest := by
  cases kind with
  | decimal | hexadecimal | symbol | not => exact separates
  | register =>
    refine refused_of_endsWord (fun character letter => ?_) separates
    exact isWordCharacter_of_isAsciiWordCharacter (isAsciiWordCharacter_of_isAlpha letter)
  | _ => trivial

theorem separates_of_blank (ended : Bool) {gap : List Char} (more : gap ≠ [])
    (blank : ∀ character ∈ gap, isBlank character = true) (rest : List Char) :
    Separates ended (gap ++ rest) := by
  obtain ⟨first, tail, rfl⟩ := List.exists_cons_of_ne_nil more
  rcases eq_of_isBlank (blank first List.mem_cons_self) with rfl | rfl <;> cases ended <;> rfl

/-- The spelling of a token that is due separates itself from the token before it. -/
theorem Token.separates_of_due {token : Token} {ended : Bool} (spelled : token.Spelled)
    (due : token.kind.startsOperand = !ended) (rest : List Char) :
    Separates ended (token.spelling ++ rest) := by
  obtain ⟨spells, -⟩ := spelled
  rcases token with ⟨kind, precedence, text, offset⟩
  have ofSign (sign : List Char) (same : some sign = some text.toList)
      (separates : ∀ rest, Separates ended (sign ++ rest)) :
      Separates ended (text.toList ++ rest) := by
    rw [← Option.some.inj same]
    exact separates rest
  have ofWord (word : IsWord text.toList) : Separates false (text.toList ++ rest) := by
    obtain ⟨first, tail, same, isWord⟩ := word.exists_cons
    rw [same]
    apply beq_eq_false_iff_ne.mpr
    rintro rfl
    cases isWord
  cases ended with
  | true =>
    cases kind with
    | or | and | equal | notEqual | plus | minus | star | slash | closeParen =>
      exact ofSign _ spells fun _ => rfl
    | whitespace => cases spells
    | _ => cases due
  | false =>
    cases kind with
    | decimal => exact ofWord (IsDecimal.isWord spells)
    | hexadecimal => exact ofWord (IsHexadecimal.isWord spells)
    | symbol => exact ofWord spells.1
    | register => rfl
    | not | openParen | dereference | negate => exact ofSign _ spells fun _ => rfl
    | _ => cases due

theorem Written.separates {offset : Nat} {tokens : List Token} {text : List Char}
    (written : Written offset tokens text) (spelled : ∀ token ∈ tokens, token.Spelled)
    {ended last : Bool} (alternate : operandEnds? ended tokens = some last) :
    Separates ended text := by
  cases written with
  | nil blank =>
    by_cases none : text = []
    · subst none
      rfl
    · rw [← List.append_nil text]
      exact separates_of_blank ended none blank []
  | @cons _ gap rest token tokens blank starts later =>
    by_cases none : gap = []
    · subst none
      have due := ((operandEnds?_cons_eq_some_iff ..).mp alternate).1
      exact Token.separates_of_due (spelled token List.mem_cons_self) due rest
    · exact separates_of_blank ended none blank _

/-! ## Reading -/

/-- The scan reads the tokens as the rules alone classify them. -/
theorem Written.outcome_scanFrom {offset : Nat} {tokens : List Token} {text : List Char}
    (written : Written offset tokens text) (spelled : ∀ token ∈ tokens, token.Spelled)
    {ended last : Bool} (alternate : operandEnds? ended tokens = some last) {stream : TokenStream}
    (room : stream.tokens.length + tokens.length ≤ TokenStream.capacity) :
    ∃ longer, (scanFrom stream offset text).outcome = .ok longer ∧
      longer.tokens = stream.tokens ++ tokens.map Token.unresolved := by
  induction written generalizing stream ended with
  | @nil offset gap blank =>
    refine ⟨stream, ?_, by rw [List.map_nil, List.append_nil]⟩
    by_cases none : gap = []
    · subst none
      exact outcome_scanFrom_nil stream offset
    · have reads := reads_blank none blank (rfl : ([] : List Char).head?.any isBlank = false)
      rw [List.append_nil] at reads
      rw [outcome_scanFrom_of_blank reads]
      exact outcome_scanFrom_nil stream _
  | @cons offset gap rest token tokens blank starts later ih =>
    have spelledLater := fun token member => spelled token (List.mem_cons_of_mem _ member)
    obtain ⟨-, alternateLater⟩ := (operandEnds?_cons_eq_some_iff ..).mp alternate
    have ends := TokenKind.endsBefore_of_separates (later.separates spelledLater alternateLater)
    rw [List.length_cons] at room
    obtain ⟨longer, tokensLonger, same⟩ := outcome_scanFrom_written stream blank starts
      (spelled token List.mem_cons_self) ends (by omega)
    have roomLonger : longer.tokens.length + tokens.length ≤ TokenStream.capacity := by
      rw [tokensLonger, List.length_append, List.length_singleton]
      omega
    obtain ⟨result, success, tokensResult⟩ := ih spelledLater alternateLater roomLonger
    refine ⟨result, same.trans success, ?_⟩
    rw [tokensResult, tokensLonger, List.append_assoc, List.singleton_append, List.map_cons]

/-- The tokens of an expression are read back from its text as they were written. -/
theorem tokenize_written {tokens : List Token} {tree : SyntaxTree} {expression : String}
    (derivation : Derives 1 tokens tree) (ranked : ∀ token ∈ tokens, token.Ranked)
    (spelled : ∀ token ∈ tokens, token.Spelled) (short : tokens.length ≤ TokenStream.capacity)
    (written : Written 0 tokens expression.toList) :
    ∃ stream, tokenize expression = .ok stream ∧ stream.resolveUnary.tokens = tokens := by
  have alternate := derivation.operandEnds?_eq
  have room : TokenStream.empty.tokens.length + tokens.length ≤ TokenStream.capacity := by
    rw [TokenStream.empty, List.length_nil, Nat.zero_add]
    exact short
  obtain ⟨stream, success, tokensStream⟩ := written.outcome_scanFrom spelled alternate room
  refine ⟨stream, success, ?_⟩
  have same : stream.tokens = tokens.map Token.unresolved := tokensStream
  change resolveUnaryAfter none stream.tokens = tokens
  rw [same]
  exact resolveUnaryAfter_unresolved ranked alternate

/-- In `1- -*$esp` the first minus sign is a subtraction and the second a negation. -/
theorem tokenize_written_difference :
    let tokens : List Token :=
      [⟨.decimal, 0, "1", 0⟩, ⟨.minus, 4, "-", 1⟩, ⟨.negate, 6, "-", 3⟩,
        ⟨.dereference, 6, "*", 4⟩, ⟨.register, 0, "esp", 5⟩]
    (∃ tree, Derives 1 tokens tree) ∧ (∀ token ∈ tokens, token.Ranked) ∧
      (∀ token ∈ tokens, token.Spelled) ∧ tokens.length ≤ TokenStream.capacity ∧
      Written 0 tokens "1- -*$esp".toList ∧
      ∃ stream, tokenize "1- -*$esp" = .ok stream ∧ stream.resolveUnary.tokens = tokens := by
  intro tokens
  have ranked : ∀ token ∈ tokens, token.Ranked := by decide
  have spelled : ∀ token ∈ tokens, token.Spelled := by
    intro token member
    simp only [tokens, List.mem_cons, List.not_mem_nil, or_false] at member
    rcases member with rfl | rfl | rfl | rfl | rfl
    case inl => exact ⟨⟨by decide, List.all_eq_true.mp rfl⟩, by decide⟩
    case inr.inr.inr.inr => exact ⟨⟨by decide, List.all_eq_true.mp rfl⟩, by decide⟩
    all_goals exact ⟨rfl, by decide⟩
  have dereferenced : Derives 6 (tokens.drop 3) (.unary .dereference _) :=
    .unary rfl ((Derives.operand rfl).loosen (by decide))
  have negated : Derives 6 (tokens.drop 2) (.unary .negate _) := .unary rfl dereferenced
  have difference := @Derives.binary ⟨.minus, 4, "-", 1⟩ .subtract [⟨.decimal, 0, "1", 0⟩] _ _ _ rfl
    ((Derives.operand rfl).loosen (by decide)) (negated.loosen (by decide))
  have derivation : Derives 1 tokens _ := difference.loosen (by decide)
  have unspaced : ∀ character ∈ ([] : List Char), isBlank character = true :=
    List.all_eq_true.mp rfl
  have space : ∀ character ∈ [' '], isBlank character = true := List.all_eq_true.mp rfl
  have written : Written 0 tokens "1- -*$esp".toList := by
    refine @Written.cons 0 [] "- -*$esp".toList _ _ unspaced rfl ?_
    refine @Written.cons 1 [] " -*$esp".toList _ _ unspaced rfl ?_
    refine @Written.cons 2 [' '] "*$esp".toList _ _ space rfl ?_
    refine @Written.cons 4 [] "$esp".toList _ _ unspaced rfl ?_
    exact @Written.cons 5 [] [] _ _ unspaced rfl (.nil unspaced)
  exact ⟨⟨_, derivation⟩, ranked, spelled, by decide, written,
    tokenize_written derivation ranked spelled (by decide) written⟩

end GuestProbe
