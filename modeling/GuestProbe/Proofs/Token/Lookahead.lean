import GuestProbe.Proofs.Token.Lexeme

/-! # What may follow a piece

Some rules look at the character behind the piece that they match: numbers end at a word boundary,
names and registers take all characters that they can, and `!=` takes precedence over `!`. So if the
scan goes on behind a piece that is no whitespace, the piece is the spelling of a token and is not
continued by what follows (`spells_of_findRule?`).

The same piece is then read before every other text that starts with the same character or with a
blank, or that is empty (`reads_of_findRule?`).
-/

namespace GuestProbe

open Text

/-! ## Ends of matches -/

namespace Text.Pattern

theorem getLast?_cons_or (first : Char) (rest : List Char) (previous : Option Char) :
    (first :: rest).getLast?.or previous = rest.getLast?.or (some first) := by
  rw [List.getLast?_cons]
  cases rest.getLast? <;> rfl

/-- The second part of a pattern matches behind the text that the first part has matched. -/
theorem exists_of_matchAfter?_append {first second : Pattern} {previous : Option Char}
    {text lexeme rest : List Char}
    (found : matchAfter? (first ++ second) previous text = some (lexeme, rest)) :
    ∃ front tail, lexeme = front ++ tail ∧
      matchAfter? second (front.getLast?.or previous) (tail ++ rest) = some (tail, rest) := by
  induction first generalizing previous text lexeme with
  | nil =>
    obtain ⟨rfl, -⟩ := matchAfter?_append _ _ _ _ _ found
    exact ⟨[], lexeme, rfl, found⟩
  | cons atom first ih =>
    cases atom with
    | literal character =>
      cases text with
      | nil => cases found
      | cons head after =>
        simp only [List.cons_append, matchAfter?] at found
        split at found
        case isFalse => cases found
        obtain ⟨inner, rfl, continued⟩ := (consume_eq_some_iff _ _ _ _).mp found
        obtain ⟨front, tail, rfl, matched⟩ := ih continued
        exact ⟨head :: front, tail, rfl, by rwa [getLast?_cons_or]⟩
    | oneOf characters =>
      cases text with
      | nil => cases found
      | cons head after =>
        simp only [List.cons_append, matchAfter?] at found
        split at found
        case isFalse => cases found
        obtain ⟨inner, rfl, continued⟩ := (consume_eq_some_iff _ _ _ _).mp found
        obtain ⟨front, tail, rfl, matched⟩ := ih continued
        exact ⟨head :: front, tail, rfl, by rwa [getLast?_cons_or]⟩
    | oneOrMore characters =>
      obtain ⟨run, inner, last, after, rfl, ends, -, continued⟩ := exists_of_matchRun? found
      obtain ⟨front, tail, rfl, matched⟩ := ih continued
      refine ⟨run ++ front, tail, (List.append_assoc ..).symm, ?_⟩
      rwa [List.getLast?_append, ends, Option.or_assoc, Option.some_or]
    | wordBoundary =>
      simp only [List.cons_append, matchAfter?] at found
      split at found
      case isFalse => cases found
      exact ih found

/-- A match of a pattern that ends with a word boundary ends at one. -/
theorem atWordBoundary_of_match? (pattern : Pattern) {text lexeme rest : List Char}
    (found : match? (pattern ++ [.wordBoundary]) text = some (lexeme, rest)) :
    atWordBoundary lexeme.getLast? rest.head? = true := by
  obtain ⟨front, tail, rfl, matched⟩ := exists_of_matchAfter?_append found
  simp only [matchAfter?] at matched
  split at matched
  case isFalse => cases matched
  case isTrue boundary =>
    cases matched
    rw [Option.or_none, List.nil_append] at boundary
    rwa [List.append_nil]

/-- A run that may end anywhere takes all accepted characters in a row. -/
theorem refused_of_matchRun? {accepts : Char → Bool} {text lexeme rest : List Char}
    (found : matchRun? accepts (fun _ after => some ([], after)) text = some (lexeme, rest)) :
    rest.head?.any accepts = false := by
  induction text generalizing lexeme with
  | nil => cases found
  | cons first after ih =>
    simp only [matchRun?] at found
    split at found
    case isFalse => cases found
    obtain ⟨inner, rfl, matched⟩ := (consume_eq_some_iff _ _ _ _).mp found
    rcases Option.or_eq_some_iff.mp matched with longer | ⟨none, stops⟩
    · exact ih longer
    · -- the run behind the last character would not be empty if it could start
      cases stops
      cases rest with
      | nil => rfl
      | cons next after =>
        rw [List.head?_cons, Option.any_some, ← Bool.not_eq_true]
        intro accepted
        simp [matchRun?, accepted, consume] at none

/-- A match of a pattern that ends with a run ends before a character that the run refuses. -/
theorem refused_of_match? (pattern : Pattern) {characters : CharacterClass}
    {text lexeme rest : List Char}
    (found : match? (pattern ++ [.oneOrMore characters]) text = some (lexeme, rest)) :
    rest.head?.any characters.contains = false := by
  obtain ⟨front, tail, rfl, matched⟩ := exists_of_matchAfter?_append found
  exact refused_of_matchRun? matched

end Text.Pattern

/-! ## Pieces before other texts -/

/-- The rules read a text in one way. -/
theorem Reads.unique {text lexeme otherLexeme rest otherRest : List Char} {kind other : TokenKind}
    (reads : Reads text kind lexeme rest) (again : Reads text other otherLexeme otherRest) :
    kind = other ∧ lexeme = otherLexeme ∧ rest = otherRest := by
  obtain ⟨index, rule, found, rfl⟩ := reads
  obtain ⟨otherIndex, otherRule, same, rfl⟩ := again
  cases found.symm.trans same
  exact ⟨rfl, rfl, rfl⟩

/-- The scan of the text does not stop at its start. -/
def Readable (text : List Char) : Prop :=
  text = [] ∨ (findRule? text).isSome = true

/-- A word of ASCII characters ends before a readable text if no ASCII character continues it. -/
theorem endsWord_of_readable {rest : List Char} (readable : Readable rest)
    (refused : rest.head?.any isAsciiWordCharacter = false) : EndsWord rest := by
  rcases readable with rfl | found
  · rfl
  obtain ⟨found, success⟩ := Option.isSome_iff_exists.mp found
  have split := findRule?_append success
  obtain ⟨first, tail, lexeme⟩ := List.exists_cons_of_ne_nil (findRule?_ne_nil success)
  have single := utf8Size_of_mem_lexeme success first (by rw [lexeme]; exact List.mem_cons_self)
  rw [Char.utf8Size_eq_one_iff, UInt32.le_iff_toNat_le] at single
  rw [split, lexeme, List.cons_append, List.head?_cons, Option.any_some] at refused
  rw [EndsWord, split, lexeme, List.cons_append, List.head?_cons, Option.any_some,
    isWordCharacter_of_ascii (Nat.lt_succ_of_le single), refused]

/-- A piece ends the word that it is if it ends at a word boundary. -/
theorem endsWord_of_boundary {word rest : List Char} (isWord : IsWord word)
    (boundary : atWordBoundary word.getLast? rest.head? = true) : EndsWord rest := by
  obtain ⟨more, areWord⟩ := isWord
  obtain ⟨last, ends⟩ := Option.ne_none_iff_exists'.mp (mt List.getLast?_eq_none_iff.mp more)
  have lastWord := isWordCharacter_of_isAsciiWordCharacter
    (areWord last (List.mem_of_getLast? ends))
  rw [ends, atWordBoundary, Option.any_some, lastWord] at boundary
  simpa [EndsWord] using boundary

section Followers

variable {text : List Char} {found : RuleMatch}

theorem endsWord_of_decimal (success : findRule? text = some found)
    (isDecimal : found.rule.kind = .decimal) : EndsWord found.rest := by
  have matched : Pattern.match? [.oneOrMore [Rule.digits], .wordBoundary] text = _ :=
    match?_of_kind success isDecimal (by decide)
  exact endsWord_of_boundary (isDecimal_lexeme success isDecimal).isWord
    (Pattern.atWordBoundary_of_match? [.oneOrMore [Rule.digits]] matched)

theorem endsWord_of_hexadecimal (success : findRule? text = some found)
    (isHexadecimal : found.rule.kind = .hexadecimal) : EndsWord found.rest := by
  have matched : Pattern.match? [.literal '0', .oneOf [.single 'x', .single 'X'],
      .oneOrMore [Rule.digits, ⟨'a', 'f'⟩, ⟨'A', 'F'⟩], .wordBoundary] text = _ :=
    match?_of_kind success isHexadecimal (by decide)
  exact endsWord_of_boundary (isHexadecimal_lexeme success isHexadecimal).isWord
    (Pattern.atWordBoundary_of_match? [.literal '0', .oneOf [.single 'x', .single 'X'],
      .oneOrMore [Rule.digits, ⟨'a', 'f'⟩, ⟨'A', 'F'⟩]] matched)

theorem notAlpha_of_register (success : findRule? text = some found)
    (isRegister : found.rule.kind = .register) : found.rest.head?.any Char.isAlpha = false := by
  have matched : Pattern.match? [.literal '$', .oneOrMore [Rule.lowercase, Rule.uppercase]] text =
      _ := match?_of_kind success isRegister (by decide)
  have refused := Pattern.refused_of_match? [.literal '$'] matched
  rwa [funext contains_letters] at refused

/-- The rule for symbols also matches a word that a character outside ASCII continues, but no rule
matches there. -/
theorem endsWord_of_symbol (success : findRule? text = some found)
    (isSymbol : found.rule.kind = .symbol) (readable : Readable found.rest) :
    EndsWord found.rest := by
  have matched : Pattern.match? [.wordBoundary,
      .oneOrMore [Rule.lowercase, Rule.uppercase, .single '_', Rule.digits]] text = _ :=
    match?_of_kind success isSymbol (by decide)
  have refused := Pattern.refused_of_match? [.wordBoundary] matched
  rw [funext contains_wordCharacters] at refused
  exact endsWord_of_readable readable refused

/-- The rules for numbers come first, so a symbol is none. -/
theorem isName_of_symbol (success : findRule? text = some found)
    (isSymbol : found.rule.kind = .symbol) (ends : EndsWord found.rest) :
    IsName found.lexeme := by
  have reads : Reads (found.lexeme ++ found.rest) .symbol found.lexeme found.rest := by
    rw [← findRule?_append success]
    exact ⟨found.index, found.rule, success, isSymbol⟩
  refine ⟨isWord_lexeme success isSymbol, fun decimal => ?_, fun hexadecimal => ?_⟩
  · cases (reads.unique (reads_decimal decimal ends)).1
  · cases (reads.unique (reads_hexadecimal hexadecimal ends)).1

/-- The rule for `!=` comes before the one for `!`. -/
theorem notEquals_of_not (success : findRule? text = some found)
    (isNot : found.rule.kind = .not) : found.rest.head?.any (· == '=') = false := by
  have lexeme := lexeme_of_sign? success (by rw [isNot]; rfl)
  cases rest : found.rest with
  | nil => rfl
  | cons first after =>
    rw [List.head?_cons, Option.any_some, beq_eq_false_iff_ne]
    rintro rfl
    have longer : Reads ('!' :: '=' :: after) .notEqual ['!', '='] after := ⟨_, _, rfl, rfl⟩
    have reads : Reads ('!' :: '=' :: after) .not found.lexeme found.rest := by
      have split := findRule?_append success
      rw [lexeme, rest] at split
      rw [split] at success
      exact ⟨found.index, found.rule, success, isNot⟩
    cases (reads.unique longer).1

/-- A piece that is no whitespace is the spelling of a token, and what follows does not continue it
unless the scan stops there. -/
theorem spells_of_findRule? (success : findRule? text = some found)
    (notBlank : found.rule.kind ≠ .whitespace) (readable : Readable found.rest) :
    ∃ word, found.rule.kind.Spells word ∧ found.rule.kind.written word = found.lexeme ∧
      found.rule.kind.EndsBefore found.rest := by
  have table : ∀ rule ∈ Rule.table, rule.kind ≠ .negate ∧ rule.kind ≠ .dereference := by decide
  obtain ⟨notNegate, notDereference⟩ := table _ (findRule?_eq_some success).1
  cases kind : found.rule.kind with
  | whitespace => exact absurd kind notBlank
  | negate => exact absurd kind notNegate
  | dereference => exact absurd kind notDereference
  | decimal =>
    exact ⟨found.lexeme, isDecimal_lexeme success kind, rfl, endsWord_of_decimal success kind⟩
  | hexadecimal =>
    exact ⟨found.lexeme, isHexadecimal_lexeme success kind, rfl,
      endsWord_of_hexadecimal success kind⟩
  | register =>
    obtain ⟨name, lexeme, more, letters⟩ := lexeme_of_register success kind
    exact ⟨name, ⟨more, letters⟩, lexeme.symm, notAlpha_of_register success kind⟩
  | symbol =>
    have ends := endsWord_of_symbol success kind readable
    exact ⟨found.lexeme, isName_of_symbol success kind ends, rfl, ends⟩
  | not =>
    exact ⟨['!'], rfl, (lexeme_of_sign? success (by rw [kind]; rfl)).symm,
      notEquals_of_not success kind⟩
  | or | and | equal | notEqual | plus | minus | star | slash | openParen | closeParen =>
    exact ⟨_, rfl, (lexeme_of_sign? success (by rw [kind]; rfl)).symm, trivial⟩

end Followers

theorem TokenKind.endsBefore_of_blank (kind : TokenKind) {rest : List Char}
    (blank : ∀ character ∈ rest.head?, isBlank character = true) : kind.EndsBefore rest := by
  cases rest with
  | nil => cases kind <;> first | rfl | trivial
  | cons first rest =>
    rcases eq_of_isBlank (blank first rfl) with rfl | rfl <;> cases kind <;> first | rfl | trivial

/-- Only the first character of what follows can continue a token. -/
theorem TokenKind.EndsBefore.of_head? {kind : TokenKind} {rest other : List Char}
    (ends : kind.EndsBefore rest) (same : other.head? = rest.head?) : kind.EndsBefore other := by
  cases kind with
  | decimal | hexadecimal | symbol | register | not =>
    exact (congrArg (Option.any _) same).trans ends
  | _ => trivial

/-- A piece behind which the scan goes on is also read before any other text that starts with the
same character or with a blank, or that is empty. -/
theorem reads_of_findRule? {text : List Char} {found : RuleMatch}
    (success : findRule? text = some found) (notBlank : found.rule.kind ≠ .whitespace)
    (readable : Readable found.rest) {other : List Char}
    (follows : other.head? = found.rest.head? ∨
      ∀ character ∈ other.head?, isBlank character = true) :
    Reads (found.lexeme ++ other) found.rule.kind found.lexeme other := by
  have table : ∀ rule ∈ Rule.table, rule.kind.unresolved = rule.kind := by decide
  have unresolved := table _ (findRule?_eq_some success).1
  obtain ⟨word, spells, written, ends⟩ := spells_of_findRule? success notBlank readable
  have endsOther : found.rule.kind.EndsBefore other := by
    rcases follows with same | blank
    · exact ends.of_head? same
    · exact found.rule.kind.endsBefore_of_blank blank
  have reads := reads_written spells endsOther
  rwa [written, unresolved] at reads

end GuestProbe
