import GuestProbe.Proofs.Text.Matching
import GuestProbe.Token.Rule

/-! # How tokens are spelled

Operators and parentheses have fixed spellings, and operands are words of letters, digits and
underscores, after a dollar sign if they are registers. A word is a decimal or a hexadecimal
number if it has that form as a whole, and a symbol otherwise.

The rules read each spelling as a token of its kind, provided that the text after it does not
continue it (`reads_written`). The blanks between tokens are read as one piece (`reads_blank`).
Digits that a character outside of ASCII continues are no number and are read as a symbol
(`reads_word`).
-/

namespace GuestProbe

open Text

/-- The rules cut a text into a piece of the given kind and the rest. -/
def Reads (text : List Char) (kind : TokenKind) (lexeme rest : List Char) : Prop :=
  ∃ index rule, findRule? text = some ⟨index, rule, lexeme, rest⟩ ∧ rule.kind = kind

/-- A rule decides if it matches and no earlier one does. -/
theorem reads_of_table (index : Nat) {rule : Rule} {text lexeme rest : List Char}
    (listed : Rule.table[index]? = some rule)
    (skipped : ∀ earlier ∈ Rule.table.take index, earlier.pattern.match? text = none)
    (matched : rule.pattern.match? text = some (lexeme, rest)) :
    Reads text rule.kind lexeme rest := by
  obtain ⟨bound, same⟩ := List.getElem?_eq_some_iff.mp listed
  refine ⟨index, rule, ?_, rfl⟩
  have split : Rule.table = Rule.table.take index ++ rule :: Rule.table.drop (index + 1) := by
    rw [← same, List.getElem_cons_drop, List.take_append_drop]
  have length : (Rule.table.take index).length = index :=
    List.length_take_of_le (Nat.le_of_lt bound)
  rw [findRule?, split, List.zipIdx_append, List.findSome?_append,
    List.findSome?_eq_none_iff.mpr ?earlier, List.zipIdx_cons, List.findSome?_cons]
  case earlier =>
    rintro ⟨earlier, position⟩ member
    simp only [skipped earlier (List.fst_mem_of_mem_zipIdx member), Option.map_none]
  simp only [matched, Option.map_some, Option.none_or, Nat.zero_add, length]

/-! ## Classes of characters -/

theorem contains_iff (range : CharacterRange) (character : Char) :
    range.contains character = true ↔
      range.first.toNat ≤ character.toNat ∧ character.toNat ≤ range.last.toNat :=
  inRange_iff range.first range.last character

theorem contains_single (sign character : Char) :
    (CharacterRange.single sign).contains character = (character == sign) := by
  rw [Bool.eq_iff_iff, contains_iff, beq_iff_eq, ← Char.toNat_inj]
  change sign.toNat ≤ character.toNat ∧ character.toNat ≤ sign.toNat ↔ _
  omega

theorem contains_digits (character : Char) :
    CharacterClass.contains [Rule.digits] character = character.isDigit := by
  rw [Bool.eq_iff_iff, isDigit_iff]
  simp only [CharacterClass.contains, List.any_cons, List.any_nil, Bool.or_false, contains_iff]
  rfl

theorem contains_hexDigits (character : Char) :
    CharacterClass.contains [Rule.digits, ⟨'a', 'f'⟩, ⟨'A', 'F'⟩] character =
      character.isHexDigit := by
  rw [Bool.eq_iff_iff, isHexDigit_iff, or_assoc]
  simp only [CharacterClass.contains, List.any_cons, List.any_nil, Bool.or_false, Bool.or_eq_true,
    contains_iff]
  rfl

theorem contains_letters (character : Char) :
    CharacterClass.contains [Rule.lowercase, Rule.uppercase] character = character.isAlpha := by
  rw [Bool.eq_iff_iff, isAlpha_iff, or_comm]
  simp only [CharacterClass.contains, List.any_cons, List.any_nil, Bool.or_false, Bool.or_eq_true,
    contains_iff]
  rfl

theorem contains_wordCharacters (character : Char) :
    CharacterClass.contains [Rule.lowercase, Rule.uppercase, .single '_', Rule.digits] character =
      isAsciiWordCharacter character := by
  rw [Bool.eq_iff_iff, isAsciiWordCharacter_iff]
  simp only [CharacterClass.contains, List.any_cons, List.any_nil, Bool.or_false, Bool.or_eq_true,
    contains_iff]
  change (97 ≤ character.toNat ∧ character.toNat ≤ 122) ∨
    (65 ≤ character.toNat ∧ character.toNat ≤ 90) ∨
    (95 ≤ character.toNat ∧ character.toNat ≤ 95) ∨
    (48 ≤ character.toNat ∧ character.toNat ≤ 57) ↔ _
  omega

/-- The characters that pieces other than numbers and symbols start with. -/
def Rule.signs : List Char :=
  ['$', ' ', '\t', '|', '&', '=', '!', '+', '-', '*', '/', '(', ')']

/-- The rules between those for numbers and symbols start with a sign. -/
theorem mem_signs_of_canStart {rule : Rule} (member : rule ∈ (Rule.table.take 15).drop 2)
    {first : Char} (starts : rule.pattern.canStart first = true) : first ∈ Rule.signs := by
  simp only [Rule.table, List.take_succ_cons, List.take_zero, List.drop_succ_cons, List.drop_zero,
    List.mem_cons, List.not_mem_nil, or_false] at member
  rcases member with rfl | rfl | rfl | rfl | rfl | rfl | rfl | rfl | rfl | rfl | rfl | rfl | rfl
  case inr.inl =>
    simp only [Pattern.canStart, CharacterClass.contains, List.any_cons, List.any_nil,
      contains_single, Bool.or_false, Bool.or_eq_true, beq_iff_eq] at starts
    rcases starts with rfl | rfl <;> decide
  all_goals
    obtain rfl := beq_iff_eq.mp starts
    decide

/-- They do not start with a word character. -/
theorem canStart_eq_false_of_word {first : Char} (isWord : isAsciiWordCharacter first = true)
    {rule : Rule} (member : rule ∈ (Rule.table.take 15).drop 2) :
    rule.pattern.canStart first = false := by
  have distinct : Rule.signs.all (!isAsciiWordCharacter ·) = true := by decide
  rw [← Bool.not_eq_true]
  intro starts
  have notWord := List.all_eq_true.mp distinct first (mem_signs_of_canStart member starts)
  rw [isWord] at notWord
  cases notWord

/-! ## Words -/

/-- The text consists of letters, digits and underscores. -/
def IsWord (text : List Char) : Prop :=
  text ≠ [] ∧ ∀ character ∈ text, isAsciiWordCharacter character = true

/-- The word is a number in decimal digits. -/
def IsDecimal (word : List Char) : Prop :=
  word ≠ [] ∧ ∀ character ∈ word, character.isDigit = true

/-- The word is a number in hexadecimal digits, with `0x` or `0X` in front of them. -/
def IsHexadecimal (word : List Char) : Prop :=
  ∃ marker digits, word = '0' :: marker :: digits ∧ (marker = 'x' ∨ marker = 'X') ∧
    digits ≠ [] ∧ ∀ character ∈ digits, character.isHexDigit = true

/-- The word is the name of a symbol. -/
def IsName (word : List Char) : Prop :=
  IsWord word ∧ ¬IsDecimal word ∧ ¬IsHexadecimal word

theorem IsWord.exists_cons {text : List Char} (word : IsWord text) :
    ∃ first tail, text = first :: tail ∧ isAsciiWordCharacter first = true := by
  obtain ⟨more, isWord⟩ := word
  obtain ⟨first, tail, rfl⟩ := List.exists_cons_of_ne_nil more
  exact ⟨first, tail, rfl, isWord first List.mem_cons_self⟩

theorem isWordCharacter_of_isDigit {character : Char} (digit : character.isDigit = true) :
    isWordCharacter character = true :=
  isWordCharacter_of_isAsciiWordCharacter (isAsciiWordCharacter_of_isDigit digit)

/-- A run of digits reaches the end of a number in their radix. -/
theorem matchRun?_of_digits {accepts : Char → Bool} {digits rest : List Char}
    (narrow : ∀ character, accepts character = true → isWordCharacter character = true)
    (more : digits ≠ []) (accepted : ∀ character ∈ digits, accepts character = true)
    (ends : EndsWord rest) :
    matchRun? accepts (fun last after => Pattern.matchAfter? [.wordBoundary] (some last) after)
      (digits ++ rest) = some (digits, rest) := by
  refine matchRun?_of_ends more accepted (refused_of_endsWord narrow ends) ?_
  intro last member
  rw [matchAfter?_wordBoundary (narrow last (accepted last member)), ends]
  rfl

theorem narrow_digits (character : Char)
    (accepted : CharacterClass.contains [Rule.digits] character = true) :
    isWordCharacter character = true :=
  isWordCharacter_of_isDigit ((contains_digits character).symm.trans accepted)

theorem narrow_hexDigits (character : Char)
    (accepted : CharacterClass.contains [Rule.digits, ⟨'a', 'f'⟩, ⟨'A', 'F'⟩] character = true) :
    isWordCharacter character = true :=
  isWordCharacter_of_isAsciiWordCharacter
    (isAsciiWordCharacter_of_isHexDigit ((contains_hexDigits character).symm.trans accepted))

theorem reads_decimal {word rest : List Char} (decimal : IsDecimal word) (ends : EndsWord rest) :
    Reads (word ++ rest) .decimal word rest := by
  refine reads_of_table 0 rfl (by simp) ?_
  refine matchRun?_of_digits narrow_digits decimal.1 ?_ ends
  intro character member
  rw [contains_digits]
  exact decimal.2 character member

theorem IsDecimal.isWord {word : List Char} (decimal : IsDecimal word) : IsWord word :=
  ⟨decimal.1, fun character member => isAsciiWordCharacter_of_isDigit (decimal.2 character member)⟩

theorem IsHexadecimal.isWord {word : List Char} (hexadecimal : IsHexadecimal word) :
    IsWord word := by
  obtain ⟨marker, digits, rfl, isMarker, -, areDigits⟩ := hexadecimal
  refine ⟨List.cons_ne_nil _ _, ?_⟩
  intro character member
  rcases List.mem_cons.mp member with rfl | member
  · decide
  rcases List.mem_cons.mp member with rfl | member
  · rcases isMarker with rfl | rfl <;> decide
  · exact isAsciiWordCharacter_of_isHexDigit (areDigits character member)

theorem IsWord.isWordCharacter {word : List Char} (isWord : IsWord word) :
    ∀ character ∈ word, isWordCharacter character = true :=
  fun character member => isWordCharacter_of_isAsciiWordCharacter (isWord.2 character member)

/-- The rule for decimal numbers refuses every other word. -/
theorem match?_decimal_eq_none {word rest : List Char}
    (isWord : ∀ character ∈ word, isWordCharacter character = true)
    (ends : EndsWord rest) (notDecimal : ¬IsDecimal word) :
    Pattern.match? [.oneOrMore [Rule.digits], .wordBoundary] (word ++ rest) = none := by
  refine matchRun?_eq_none_of_word narrow_digits isWord ends fun whole => notDecimal ⟨whole.1, ?_⟩
  intro character member
  rw [← contains_digits]
  exact whole.2 character member

theorem not_isDecimal_of_isHexadecimal {word : List Char} (hexadecimal : IsHexadecimal word) :
    ¬IsDecimal word := by
  obtain ⟨marker, digits, rfl, isMarker, -⟩ := hexadecimal
  intro decimal
  have digit := decimal.2 marker (by simp)
  rcases isMarker with rfl | rfl <;> cases digit

theorem contains_markers (marker : Char) :
    CharacterClass.contains [.single 'x', .single 'X'] marker = true ↔
      marker = 'x' ∨ marker = 'X' := by
  simp [CharacterClass.contains, contains_single]

theorem reads_hexadecimal {word rest : List Char} (hexadecimal : IsHexadecimal word)
    (ends : EndsWord rest) : Reads (word ++ rest) .hexadecimal word rest := by
  have isWord := hexadecimal.isWord
  have notDecimal := not_isDecimal_of_isHexadecimal hexadecimal
  obtain ⟨marker, digits, rfl, isMarker, more, areDigits⟩ := hexadecimal
  refine reads_of_table 1 rfl ?_ ?_
  · intro earlier member
    obtain rfl := List.mem_singleton.mp member
    exact match?_decimal_eq_none isWord.isWordCharacter ends notDecimal
  · have run := matchRun?_of_digits narrow_hexDigits more
      (fun character member => (contains_hexDigits character).trans (areDigits character member))
      ends
    rw [List.cons_append, List.cons_append, Pattern.match?, Pattern.matchAfter?, if_pos rfl,
      Pattern.matchAfter?, if_pos ((contains_markers marker).mpr isMarker), Pattern.matchAfter?,
      run]
    rfl

/-- The rule for hexadecimal numbers refuses every other word. -/
theorem match?_hexadecimal_eq_none {word rest : List Char} (more : word ≠ [])
    (isWord : ∀ character ∈ word, isWordCharacter character = true)
    (ends : EndsWord rest) (notHexadecimal : ¬IsHexadecimal word) :
    Pattern.match? [.literal '0', .oneOf [.single 'x', .single 'X'],
      .oneOrMore [Rule.digits, ⟨'a', 'f'⟩, ⟨'A', 'F'⟩], .wordBoundary] (word ++ rest) = none := by
  cases word with
  | nil => exact absurd rfl more
  | cons zero tail =>
    rw [List.cons_append, Pattern.match?, Pattern.matchAfter?]
    by_cases isZero : zero = '0'
    case neg => exact if_neg isZero
    subst isZero
    rw [if_pos rfl]
    cases tail with
    | nil =>
      -- The text after the word cannot supply the marker.
      cases rest with
      | nil => rfl
      | cons first rest =>
        have refused : ¬CharacterClass.contains [.single 'x', .single 'X'] first = true := by
          rw [contains_markers]
          rintro (rfl | rfl) <;> cases ends
        rw [List.nil_append, Pattern.matchAfter?, if_neg refused]
        rfl
    | cons marker digits =>
      rw [List.cons_append, Pattern.matchAfter?]
      by_cases isMarker : marker = 'x' ∨ marker = 'X'
      case neg =>
        rw [if_neg (mt (contains_markers marker).mp isMarker)]
        rfl
      have digitsWord : ∀ character ∈ digits, isWordCharacter character = true :=
        fun character member =>
          isWord character (List.mem_cons_of_mem _ (List.mem_cons_of_mem _ member))
      rw [if_pos ((contains_markers marker).mpr isMarker), Pattern.matchAfter?,
        matchRun?_eq_none_of_word narrow_hexDigits digitsWord ends]
      · rfl
      · intro whole
        refine notHexadecimal ⟨marker, digits, rfl, isMarker, whole.1, ?_⟩
        intro character member
        rw [← contains_hexDigits]
        exact whole.2 character member

/-- A text continues the word before it up to where Unicode ends the word. If no ASCII character
continues that word, only an empty continuation leaves it a word of ASCII characters. -/
theorem exists_continuation {rest : List Char}
    (ends : rest.head?.any isAsciiWordCharacter = false) :
    ∃ more after, rest = more ++ after ∧ EndsWord after ∧
      (∀ character ∈ more, isWordCharacter character = true) ∧
        ∀ word, IsWord (word ++ more) → more = [] ∧ EndsWord rest := by
  refine ⟨rest.takeWhile isWordCharacter, rest.dropWhile isWordCharacter,
    List.takeWhile_append_dropWhile.symm, refused_dropWhile isWordCharacter rest,
    List.all_eq_true.mp List.all_takeWhile, ?_⟩
  intro word isWord
  cases rest with
  | nil => exact ⟨rfl, rfl⟩
  | cons first tail =>
    cases continues : isWordCharacter first with
    | false => exact ⟨List.takeWhile_cons_of_neg (by simp [continues]), continues⟩
    | true =>
      rw [List.takeWhile_cons_of_pos continues] at isWord
      have inside := isWord.2 first (List.mem_append_right word List.mem_cons_self)
      cases inside.symm.trans ends

/-- The rule for symbols takes all ASCII characters of a word, unless it is a number. A number that
a character outside of ASCII continues is none. -/
theorem reads_word {word rest : List Char} (isWord : IsWord word)
    (ends : rest.head?.any isAsciiWordCharacter = false)
    (notDecimal : ¬(IsDecimal word ∧ EndsWord rest))
    (notHexadecimal : ¬(IsHexadecimal word ∧ EndsWord rest)) :
    Reads (word ++ rest) .symbol word rest := by
  obtain ⟨first, tail, same, firstWord⟩ := isWord.exists_cons
  obtain ⟨more, after, split, endsAfter, isWordMore, alone⟩ := exists_continuation ends
  have isWordWhole : ∀ character ∈ word ++ more, isWordCharacter character = true :=
    List.forall_mem_append.mpr ⟨isWord.isWordCharacter, isWordMore⟩
  -- The numbers end where Unicode ends the word, so they can only be the word and its continuation.
  have whole : word ++ rest = (word ++ more) ++ after := by rw [List.append_assoc, ← split]
  refine reads_of_table 15 rfl ?_ ?_
  · intro earlier member
    rw [← List.take_append_drop 2 (Rule.table.take 15)] at member
    rcases List.mem_append.mp member with number | between
    · rw [whole]
      rcases List.mem_cons.mp number with rfl | number
      · refine match?_decimal_eq_none isWordWhole endsAfter fun decimal => ?_
        obtain ⟨rfl, endsRest⟩ := alone word decimal.isWord
        rw [List.append_nil] at decimal
        exact notDecimal ⟨decimal, endsRest⟩
      · obtain rfl := List.mem_singleton.mp number
        refine match?_hexadecimal_eq_none (List.append_ne_nil_of_left_ne_nil isWord.1 more)
          isWordWhole endsAfter fun hexadecimal => ?_
        obtain ⟨rfl, endsRest⟩ := alone word hexadecimal.isWord
        rw [List.append_nil] at hexadecimal
        exact notHexadecimal ⟨hexadecimal, endsRest⟩
    · rw [same]
      exact Pattern.match?_eq_none_of_head (canStart_eq_false_of_word firstWord between) _
  · have starts : atWordBoundary none (word ++ rest).head? = true := by
      simp [same, atWordBoundary, isWordCharacter_of_isAsciiWordCharacter firstWord]
    have class_eq : CharacterClass.contains
        [Rule.lowercase, Rule.uppercase, .single '_', Rule.digits] = isAsciiWordCharacter :=
      funext contains_wordCharacters
    rw [Pattern.match?, Pattern.matchAfter?, if_pos starts, Pattern.matchAfter?, class_eq]
    exact matchRun?_of_ends isWord.1 isWord.2 ends (fun _ _ => rfl)

theorem reads_symbol {word rest : List Char} (name : IsName word) (ends : EndsWord rest) :
    Reads (word ++ rest) .symbol word rest := by
  obtain ⟨isWord, notDecimal, notHexadecimal⟩ := name
  have narrow : ∀ character, isAsciiWordCharacter character = true →
      isWordCharacter character = true := fun _ => isWordCharacter_of_isAsciiWordCharacter
  exact reads_word isWord (refused_of_endsWord narrow ends) (fun decimal => notDecimal decimal.1)
    (fun hexadecimal => notHexadecimal hexadecimal.1)

/-! ## Registers and blanks -/

theorem reads_register {name rest : List Char} (more : name ≠ [])
    (letters : ∀ character ∈ name, character.isAlpha = true)
    (ends : rest.head?.any Char.isAlpha = false) :
    Reads ('$' :: name ++ rest) .register ('$' :: name) rest := by
  refine reads_of_table 2 rfl ?_ ?_
  · intro earlier member
    rcases List.mem_cons.mp member with rfl | member
    · rfl
    · obtain rfl := List.mem_singleton.mp member
      rfl
  · have same : CharacterClass.contains [Rule.lowercase, Rule.uppercase] = Char.isAlpha :=
      funext contains_letters
    rw [List.cons_append, Pattern.match?, Pattern.matchAfter?, if_pos rfl, Pattern.matchAfter?,
      same, matchRun?_of_ends more letters ends (fun _ _ => rfl)]
    rfl

def isBlank (character : Char) : Bool :=
  character == ' ' || character == '\t'

theorem eq_of_isBlank {character : Char} (blank : isBlank character = true) :
    character = ' ' ∨ character = '\t' := by
  simpa [isBlank] using blank

theorem contains_blanks (character : Char) :
    CharacterClass.contains [.single ' ', .single '\t'] character = isBlank character := by
  simp [CharacterClass.contains, contains_single, isBlank]

theorem reads_blank {gap rest : List Char} (more : gap ≠ [])
    (blank : ∀ character ∈ gap, isBlank character = true)
    (ends : rest.head?.any isBlank = false) : Reads (gap ++ rest) .whitespace gap rest := by
  refine reads_of_table 3 rfl ?_ ?_
  · cases gap with
    | nil => exact absurd rfl more
    | cons first tail =>
      have refused : ∀ earlier ∈ Rule.table.take 3, earlier.pattern.canStart first = false := by
        rcases eq_of_isBlank (blank first List.mem_cons_self) with rfl | rfl <;> decide
      exact fun earlier member => Pattern.match?_eq_none_of_head (refused earlier member) _
  · have same : CharacterClass.contains [.single ' ', .single '\t'] = isBlank :=
      funext contains_blanks
    rw [Pattern.match?, Pattern.matchAfter?, same]
    exact matchRun?_of_ends more blank ends (fun _ _ => rfl)

/-! ## Spellings by kind -/

namespace TokenKind

/-- The spelling of the operators or parentheses of a kind. -/
def sign? : TokenKind → Option (List Char)
  | .or => some ['|', '|']
  | .and => some ['&', '&']
  | .equal => some ['=', '=']
  | .notEqual => some ['!', '=']
  | .plus => some ['+']
  | .minus | .negate => some ['-']
  | .star | .dereference => some ['*']
  | .slash => some ['/']
  | .not => some ['!']
  | .openParen => some ['(']
  | .closeParen => some [')']
  | .whitespace | .decimal | .hexadecimal | .register | .symbol => none

/-- The text is one that tokens of the kind can have. -/
def Spells (kind : TokenKind) (text : List Char) : Prop :=
  match kind with
  | .decimal => IsDecimal text
  | .hexadecimal => IsHexadecimal text
  | .register => text ≠ [] ∧ ∀ character ∈ text, character.isAlpha = true
  | .symbol => IsName text
  | kind => kind.sign? = some text

/-- A text of the kind as it stands in an expression. -/
def written (kind : TokenKind) (text : List Char) : List Char :=
  if kind = .register then '$' :: text else text

/-- The kind that a token has by its spelling alone. -/
def unresolved : TokenKind → TokenKind
  | .negate => .minus
  | .dereference => .star
  | kind => kind

/-- The text that follows a token of the kind does not continue it. -/
def EndsBefore (kind : TokenKind) (rest : List Char) : Prop :=
  match kind with
  | .decimal | .hexadecimal | .symbol => EndsWord rest
  | .register => rest.head?.any Char.isAlpha = false
  | .not => rest.head?.any (· == '=') = false
  | _ => True

end TokenKind

theorem reads_not {rest : List Char} (ends : rest.head?.any (· == '=') = false) :
    Reads ('!' :: rest) .not ['!'] rest := by
  cases rest with
  | nil => exact ⟨_, _, rfl, rfl⟩
  | cons first rest =>
    have different : first ≠ '=' := beq_eq_false_iff_ne.mp ends
    refine reads_of_table 12 rfl ?_ rfl
    have refused : ∀ earlier ∈ Rule.table.take 12, earlier.pattern.canStart '!' = false ∨
        earlier.pattern = [.literal '!', .literal '='] := by
      decide
    intro earlier member
    rcases refused earlier member with cannot | same
    · exact Pattern.match?_eq_none_of_head cannot _
    · rw [same, Pattern.match?, Pattern.matchAfter?, if_pos rfl, Pattern.matchAfter?,
        if_neg different]
      rfl

/-- The rules read a spelling as a token of its kind. -/
theorem reads_written {kind : TokenKind} {text rest : List Char} (spells : kind.Spells text)
    (ends : kind.EndsBefore rest) :
    Reads (kind.written text ++ rest) kind.unresolved (kind.written text) rest := by
  cases kind with
  | decimal => exact reads_decimal spells ends
  | hexadecimal => exact reads_hexadecimal spells ends
  | symbol => exact reads_symbol spells ends
  | register => exact reads_register spells.1 spells.2 ends
  | not =>
    obtain rfl := Option.some.inj spells
    exact reads_not ends
  | whitespace => cases spells
  | or | and | equal | notEqual | plus | minus | star | slash | openParen | closeParen |
    dereference | negate =>
    obtain rfl := Option.some.inj spells
    exact ⟨_, _, rfl, rfl⟩

end GuestProbe
