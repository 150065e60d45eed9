import GuestProbe.Proofs.Expression.Grammar
import GuestProbe.Proofs.Expression.Reduction
import GuestProbe.Proofs.Expression.Scanning
import GuestProbe.Proofs.Text.Digits

/-! # Expressions of one operand

An expression that the rules read as a single operand has the value of that operand
(`Environment.evaluate_of_reads`). If it is a word, the operand is what a token holds of it, which
is the first 31 characters (`Environment.evaluate_word`).

So a literal need not have the value that its digits denote: with enough leading zeros, the digits
that count are cut off. `literal_denotes_leading_digits` says which value it has instead, and for
which literals that makes a difference.
-/

namespace GuestProbe

open Text

theorem TokenKind.unaryForm?_of_isOperand {kind : TokenKind} (isOperand : kind.isOperand = true) :
    kind.unaryForm? = none := by
  cases kind <;> cases isOperand <;> rfl

/-- An expression that the rules read as one operand has the value of that operand. -/
theorem Environment.evaluate_of_reads (environment : Environment) {text : List Char}
    {kind : TokenKind} (reads : Reads text kind text []) (isOperand : kind.isOperand = true) :
    environment.evaluate (String.ofList text) =
      (environment.operand
        (Token.ofText kind kind.precedence (kind.tokenText text) 0)).outcome := by
  have notBlank : kind ≠ .whitespace := by
    rintro rfl
    cases isOperand
  obtain ⟨stream, success, single⟩ := tokenize_of_reads reads notBlank
  have isOperandToken :
      (Token.ofText kind kind.precedence (kind.tokenText text) 0).kind.isOperand = true := isOperand
  generalize Token.ofText kind kind.precedence (kind.tokenText text) 0 = token
    at single isOperandToken ⊢
  have resolved : stream.resolveUnary.tokens = [token] := by
    change resolveUnaryAfter none stream.tokens = [token]
    rw [single, resolveUnaryAfter, resolveUnaryAfter, Token.resolveUnary,
      TokenKind.unaryForm?_of_isOperand isOperandToken]
  have balanced := (Derives.operand isOperandToken).isBalanced
  have run : (environment.run [token]).outcome = (environment.operand token).outcome := by
    rw [environment.outcome_run, (unpaired?_eq_none_iff [token]).mpr balanced]
    exact environment.value_eq [token]
  rw [evaluate, success, ← run, ← resolved]
  rfl

/-- An expression of one word has the value of a token with as many characters of the word as a
token holds bytes. -/
theorem Environment.evaluate_word (environment : Environment) {word : List Char} {kind : TokenKind}
    (isWord : IsWord word) (reads : Reads (word ++ []) kind word [])
    (isOperand : kind.isOperand = true) (notRegister : kind ≠ .register) :
    environment.evaluate (String.ofList word) =
      (environment.operand
        ⟨kind, kind.precedence, String.ofList (word.take Token.textLimit), 0⟩).outcome := by
  have single : ∀ character ∈ word, character.utf8Size = 1 := fun character member =>
    utf8Size_of_isAsciiWordCharacter (isWord.2 character member)
  rw [List.append_nil] at reads
  rw [environment.evaluate_of_reads reads isOperand, TokenKind.tokenText, if_neg notRegister,
    Token.ofText, takeBytes_eq_take _ single]

/-! ## Literals -/

/-- A numeric literal, by its radix, the mark in front of its digits and its digits. -/
inductive Literal : Nat → List Char → List Char → Prop where
  | decimal {digits : List Char} (more : digits ≠ [])
      (areDigits : ∀ character ∈ digits, character.isDigit = true) : Literal 10 [] digits
  | hexadecimal {marker : Char} {digits : List Char} (isMarker : marker = 'x' ∨ marker = 'X')
      (more : digits ≠ []) (areDigits : ∀ character ∈ digits, character.isHexDigit = true) :
      Literal 16 ['0', marker] digits

/-- The outcome is the number, or a refusal of the literal if the number does not fit into a
word. -/
def Denotes (outcome : Except ExpressionError UInt32) (number : Nat) : Prop :=
  (number < UInt32.size → outcome = .ok (UInt32.ofNat number)) ∧
    (UInt32.size ≤ number → ∃ text, outcome = .error (.invalidLiteral text 0))

theorem Token.literal_denotes {token : Token} {radix : Nat} {digits : List Char}
    (first : token.offset = 0) (positive : 0 < radix) (more : digits ≠ [])
    (valid : ∀ character ∈ digits, digitValue? radix character = some (digit character)) :
    Denotes (token.literal radix digits) (numeral radix digits) := by
  rw [literal, readWord_eq positive more valid]
  constructor
  · intro fits
    rw [if_pos fits]
  · intro exceeds
    rw [if_neg (Nat.not_lt.mpr exceeds), first]
    exact ⟨_, rfl⟩

theorem take_ne_nil {digits : List Char} (more : digits ≠ []) {count : Nat} (positive : 0 < count) :
    digits.take count ≠ [] := by
  obtain ⟨first, rest, rfl⟩ := List.exists_cons_of_ne_nil more
  obtain ⟨count, rfl⟩ := Nat.exists_eq_add_of_lt positive
  simp

theorem Environment.outcome_operand_hexadecimal (environment : Environment)
    {mark digits : List Char} (two : byteLength mark = 2) (precedence offset : Nat) :
    (environment.operand
        ⟨.hexadecimal, precedence, String.ofList (mark ++ digits), offset⟩).outcome =
      Token.literal ⟨.hexadecimal, precedence, String.ofList (mark ++ digits), offset⟩ 16
        digits := by
  have split := splitBytes?_byteLength mark digits
  simp only [operand, String.toList_ofList, ← two, split, Traced.outcome_ofExcept]

/-- A literal has the value of as many of its digits as a token holds. -/
theorem Literal.evaluate_denotes {radix : Nat} {mark digits : List Char}
    (literal : Literal radix mark digits) (environment : Environment) :
    Denotes (environment.evaluate (String.ofList (mark ++ digits)))
      (numeral radix (digits.take (Token.textLimit - mark.length))) := by
  have atEnd : EndsWord [] := rfl
  cases literal with
  | decimal more areDigits =>
    have decimal : IsDecimal digits := ⟨more, areDigits⟩
    rw [List.nil_append,
      environment.evaluate_word decimal.isWord (reads_decimal decimal atEnd) rfl (by decide)]
    change Denotes (Token.literal _ 10 (String.ofList (digits.take Token.textLimit)).toList) _
    rw [String.toList_ofList]
    have kept : digits.take Token.textLimit ≠ [] := take_ne_nil more (by decide)
    exact Token.literal_denotes rfl (by decide) kept fun character member =>
      digitValue?_of_isDigit (areDigits character (List.mem_of_mem_take member))
  | @hexadecimal marker digits isMarker more areDigits =>
    have hexadecimal : IsHexadecimal (['0', marker] ++ digits) :=
      ⟨marker, digits, rfl, isMarker, more, areDigits⟩
    have two : byteLength ['0', marker] = 2 := by
      rcases isMarker with rfl | rfl <;> rfl
    have text : (['0', marker] ++ digits).take Token.textLimit =
        ['0', marker] ++ digits.take (Token.textLimit - ['0', marker].length) := rfl
    have kept : digits.take (Token.textLimit - ['0', marker].length) ≠ [] :=
      take_ne_nil more (Nat.sub_pos_of_lt (by decide : 2 < 31))
    rw [environment.evaluate_word hexadecimal.isWord (reads_hexadecimal hexadecimal atEnd) rfl
        (by decide),
      text, environment.outcome_operand_hexadecimal two]
    exact Token.literal_denotes rfl (by decide) kept fun character member =>
      digitValue?_of_isHexDigit (areDigits character (List.mem_of_mem_take member))

theorem Literal.radix_le {radix : Nat} {mark digits : List Char}
    (literal : Literal radix mark digits) : 2 ≤ radix := by
  cases literal <;> decide

theorem Literal.digits_ne_nil {radix : Nat} {mark digits : List Char}
    (literal : Literal radix mark digits) : digits ≠ [] := by
  cases literal with
  | decimal more _ => exact more
  | hexadecimal _ more _ => exact more

/-- A number that fits into a word is no refusal, and it is no other number that fits. -/
theorem Denotes.eq_of_lt {outcome : Except ExpressionError UInt32} {number other : Nat}
    (denotes : Denotes outcome number) (denotesOther : Denotes outcome other)
    (fits : number < UInt32.size) : number = other := by
  have value := denotes.1 fits
  by_cases otherFits : other < UInt32.size
  · have same := value.symm.trans (denotesOther.1 otherFits)
    have words := congrArg UInt32.toNat (Except.ok.inj same)
    rw [UInt32.toNat_ofNat_of_lt' fits, UInt32.toNat_ofNat_of_lt' otherFits] at words
    exact words
  · obtain ⟨text, refused⟩ := denotesOther.2 (Nat.not_lt.mp otherFits)
    cases value.symm.trans refused

/-- A literal of up to 31 bytes denotes the number that its digits denote. A longer one denotes the
number of its first 31 bytes, which is another result unless all digits are zeros or these bytes
exceed a word already. -/
theorem literal_denotes_leading_digits (environment : Environment) {radix : Nat}
    {mark digits : List Char} (literal : Literal radix mark digits) :
    Denotes (environment.evaluate (String.ofList (mark ++ digits)))
        (numeral radix (digits.take (Token.textLimit - mark.length))) ∧
      (Denotes (environment.evaluate (String.ofList (mark ++ digits))) (numeral radix digits) ↔
        (mark ++ digits).length ≤ Token.textLimit ∨ numeral radix digits = 0 ∨
          UInt32.size ≤ numeral radix (digits.take (Token.textLimit - mark.length))) := by
  have denotes := literal.evaluate_denotes environment
  have large := literal.radix_le
  have more := List.length_pos_iff.mpr literal.digits_ne_nil
  have less : numeral radix (digits.take (Token.textLimit - mark.length)) ≤ numeral radix digits :=
    numeral_take_le (by omega) _ digits
  refine ⟨denotes, ?_, ?_⟩
  · intro whole
    by_cases short : (mark ++ digits).length ≤ Token.textLimit
    · exact .inl short
    by_cases fits : numeral radix (digits.take (Token.textLimit - mark.length)) < UInt32.size
    · have same := denotes.eq_of_lt whole fits
      rw [List.length_append] at short
      exact .inr (.inl (numeral_eq_zero_of_take large (by omega) same))
    · exact .inr (.inr (Nat.not_lt.mp fits))
  · rintro (short | zero | exceeds)
    · rw [List.length_append] at short
      have all : digits.take (Token.textLimit - mark.length) = digits :=
        List.take_of_length_le (by omega)
      rw [all] at denotes
      exact denotes
    · have same : numeral radix digits =
          numeral radix (digits.take (Token.textLimit - mark.length)) := by omega
      rw [same]
      exact denotes
    · exact ⟨fun fits => absurd fits (by omega), fun _ => denotes.2 exceeds⟩

/-- The literal `0X1A` has the value 26. -/
theorem literal_denotes_leading_digits_hexadecimal :
    let environment : Environment :=
      ⟨fun _ => none, fun address _ _ => .error (.fault address), fun _ => none, false⟩
    Literal 16 ['0', 'X'] ['1', 'A'] ∧ environment.evaluate "0X1A" = .ok 26 := by
  intro environment
  have literal : Literal 16 ['0', 'X'] ['1', 'A'] :=
    .hexadecimal (.inr rfl) (by decide) (List.all_eq_true.mp rfl)
  have value : numeral 16 ['1', 'A'] = 26 := by decide
  have whole := (literal_denotes_leading_digits environment literal).2.mpr (.inl (by decide))
  rw [value] at whole
  exact ⟨literal, whole.1 (by decide)⟩

/-- Thirty zeros and `12` denote 12, but the literal has the value 1. -/
theorem literal_of_many_zeros :
    let digits := List.replicate 30 '0' ++ ['1', '2']
    Literal 10 [] digits ∧ numeral 10 digits = 12 ∧
      ∀ environment : Environment, environment.evaluate (String.ofList digits) = .ok 1 ∧
        ¬Denotes (environment.evaluate (String.ofList digits)) (numeral 10 digits) := by
  intro digits
  have literal : Literal 10 [] digits := .decimal (by decide) (List.all_eq_true.mp rfl)
  have value : numeral 10 digits = 12 := by decide
  have kept : numeral 10 (digits.take 31) = 1 := by decide
  refine ⟨literal, value, fun environment => ?_⟩
  have denotes : Denotes (environment.evaluate (String.ofList digits))
      (numeral 10 (digits.take 31)) := literal.evaluate_denotes environment
  rw [kept] at denotes
  have one : environment.evaluate (String.ofList digits) = .ok 1 := denotes.1 (by decide)
  refine ⟨one, fun other => ?_⟩
  have same := denotes.eq_of_lt other (by decide)
  rw [value] at same
  cases same

end GuestProbe
