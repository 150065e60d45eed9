import GuestProbe.Proofs.Token.Spelling

/-! # What pieces look like

A piece of an expression fits the pattern of the rule that matched it (`Pattern.fits_of_match?`).
For the rules of the token table this fixes the text of operators and parentheses and the form of
numbers, registers, symbols and whitespace, and it leaves only ASCII characters.
-/

namespace GuestProbe

open Text

/-- The atom matches ASCII characters only. -/
def Text.Atom.isAscii : Atom → Bool
  | .literal character => character.toNat ≤ 0x7F
  | .oneOf characters | .oneOrMore characters => characters.all (·.last.toNat ≤ 0x7F)
  | .wordBoundary => true

namespace Text.Pattern

/-- The texts that have the form of a pattern, wherever they stand. -/
def Fits : Pattern → List Char → Prop
  | [], text => text = []
  | .literal character :: pattern, text => ∃ rest, text = character :: rest ∧ Fits pattern rest
  | .oneOf characters :: pattern, text =>
      ∃ first rest, text = first :: rest ∧ characters.contains first = true ∧ Fits pattern rest
  | .oneOrMore characters :: pattern, text =>
      ∃ run rest, text = run ++ rest ∧ run ≠ [] ∧
        (∀ character ∈ run, characters.contains character = true) ∧ Fits pattern rest
  | .wordBoundary :: pattern, text => Fits pattern text

/-- A run consists of accepted characters, and the continuation matches what follows the last of
them. -/
theorem exists_of_matchRun? {accepts : Char → Bool}
    {continuation : Char → List Char → Option (List Char × List Char)}
    {text lexeme rest : List Char}
    (found : matchRun? accepts continuation text = some (lexeme, rest)) :
    ∃ run tail last after, lexeme = run ++ tail ∧ run.getLast? = some last ∧
      (∀ character ∈ run, accepts character = true) ∧
        continuation last after = some (tail, rest) := by
  induction text generalizing lexeme with
  | nil => cases found
  | cons first after ih =>
    simp only [matchRun?] at found
    split at found
    case isFalse => cases found
    case isTrue accepted =>
      obtain ⟨inner, rfl, matched⟩ := (consume_eq_some_iff _ _ _ _).mp found
      rcases Option.or_eq_some_iff.mp matched with longer | ⟨-, stops⟩
      · obtain ⟨run, tail, last, later, rfl, ends, acceptedRun, continued⟩ := ih longer
        refine ⟨first :: run, tail, last, later, rfl, ?_,
          List.forall_mem_cons.mpr ⟨accepted, acceptedRun⟩, continued⟩
        rw [List.getLast?_cons, ends, Option.getD_some]
      · exact ⟨[first], inner, first, after, rfl, rfl, List.forall_mem_singleton.mpr accepted,
          stops⟩

theorem fits_of_matchAfter? {pattern : Pattern} {previous : Option Char}
    {text lexeme rest : List Char}
    (found : matchAfter? pattern previous text = some (lexeme, rest)) : pattern.Fits lexeme := by
  induction pattern generalizing previous text lexeme with
  | nil => cases found; rfl
  | cons atom pattern ih =>
    cases atom with
    | literal character =>
      cases text with
      | nil => cases found
      | cons first after =>
        simp only [matchAfter?] at found
        split at found
        · next same =>
          obtain ⟨tail, rfl, inner⟩ := (consume_eq_some_iff _ _ _ _).mp found
          exact ⟨tail, by rw [same], ih inner⟩
        · cases found
    | oneOf characters =>
      cases text with
      | nil => cases found
      | cons first after =>
        simp only [matchAfter?] at found
        split at found
        · next accepted =>
          obtain ⟨tail, rfl, inner⟩ := (consume_eq_some_iff _ _ _ _).mp found
          exact ⟨first, tail, rfl, accepted, ih inner⟩
        · cases found
    | oneOrMore characters =>
      obtain ⟨run, tail, last, after, rfl, ends, accepted, continued⟩ := exists_of_matchRun? found
      have more : run ≠ [] := List.ne_nil_of_mem (List.mem_of_getLast? ends)
      exact ⟨run, tail, rfl, more, accepted, ih continued⟩
    | wordBoundary =>
      simp only [matchAfter?] at found
      split at found
      · exact ih found
      · cases found

theorem fits_of_match? {pattern : Pattern} {text lexeme rest : List Char}
    (found : pattern.match? text = some (lexeme, rest)) : pattern.Fits lexeme :=
  fits_of_matchAfter? found

theorem run_of_fits {characters : CharacterClass} {text : List Char}
    (fits : Fits [.oneOrMore characters] text) :
    text ≠ [] ∧ ∀ character ∈ text, characters.contains character = true := by
  obtain ⟨run, rest, rfl, more, accepted, nothing⟩ := fits
  obtain rfl : rest = [] := nothing
  rw [List.append_nil]
  exact ⟨more, accepted⟩

theorem toNat_le_of_contains {characters : CharacterClass} {character : Char}
    (ascii : characters.all (·.last.toNat ≤ 0x7F) = true)
    (accepted : characters.contains character = true) : character.toNat ≤ 0x7F := by
  obtain ⟨range, member, inside⟩ := List.any_eq_true.mp accepted
  simp only [CharacterRange.contains, Bool.and_eq_true, decide_eq_true_eq] at inside
  have bound : range.last.toNat ≤ 0x7F := of_decide_eq_true (List.all_eq_true.mp ascii range member)
  exact Nat.le_trans (UInt32.le_iff_toNat_le.mp inside.2) bound

/-- A text of the form of an ASCII pattern is ASCII text. -/
theorem toNat_le_of_fits {pattern : Pattern} {text : List Char} (fits : pattern.Fits text)
    (ascii : ∀ atom ∈ pattern, Atom.isAscii atom = true) :
    ∀ character ∈ text, character.toNat ≤ 0x7F := by
  induction pattern generalizing text with
  | nil =>
    cases fits
    exact fun character member => absurd member List.not_mem_nil
  | cons atom pattern ih =>
    obtain ⟨here, later⟩ := List.forall_mem_cons.mp ascii
    cases atom with
    | literal character =>
      obtain ⟨rest, rfl, inner⟩ := fits
      exact List.forall_mem_cons.mpr ⟨of_decide_eq_true here, ih inner later⟩
    | oneOf characters =>
      obtain ⟨first, rest, rfl, accepted, inner⟩ := fits
      exact List.forall_mem_cons.mpr ⟨toNat_le_of_contains here accepted, ih inner later⟩
    | oneOrMore characters =>
      obtain ⟨run, rest, rfl, -, accepted, inner⟩ := fits
      intro character member
      rcases List.mem_append.mp member with inRun | inRest
      · exact toNat_le_of_contains here (accepted character inRun)
      · exact ih inner later character inRest
    | wordBoundary => exact ih fits later

theorem eq_of_fits_literals {sign text : List Char} (fits : Fits (sign.map .literal) text) :
    text = sign := by
  induction sign generalizing text with
  | nil => exact fits
  | cons character sign ih =>
    obtain ⟨rest, rfl, inner⟩ := fits
    rw [ih inner]

end Text.Pattern

/-! ## Words by pattern -/

section Words

variable {text lexeme rest : List Char}

theorem isDecimal_of_match?
    (matched : Pattern.match? [.oneOrMore [Rule.digits], .wordBoundary] text =
      some (lexeme, rest)) : IsDecimal lexeme := by
  have fits := Pattern.fits_of_match? matched
  have run : Pattern.Fits [.oneOrMore [Rule.digits]] lexeme := fits
  obtain ⟨more, digits⟩ := Pattern.run_of_fits run
  refine ⟨more, fun character member => ?_⟩
  rw [← contains_digits]
  exact digits character member

theorem isHexadecimal_of_match?
    (matched : Pattern.match? [.literal '0', .oneOf [.single 'x', .single 'X'],
      .oneOrMore [Rule.digits, ⟨'a', 'f'⟩, ⟨'A', 'F'⟩], .wordBoundary] text =
        some (lexeme, rest)) : IsHexadecimal lexeme := by
  obtain ⟨_, same, marker, digits, rfl, isMarker, fits⟩ := Pattern.fits_of_match? matched
  have run : Pattern.Fits [.oneOrMore [Rule.digits, ⟨'a', 'f'⟩, ⟨'A', 'F'⟩]] digits := fits
  obtain ⟨more, areDigits⟩ := Pattern.run_of_fits run
  refine ⟨marker, digits, same, (contains_markers marker).mp isMarker, more, ?_⟩
  intro character member
  rw [← contains_hexDigits]
  exact areDigits character member

theorem isWord_of_match?
    (matched : Pattern.match? [.wordBoundary,
      .oneOrMore [Rule.lowercase, Rule.uppercase, .single '_', Rule.digits]] text =
        some (lexeme, rest)) : IsWord lexeme := by
  have fits := Pattern.fits_of_match? matched
  obtain ⟨more, areWord⟩ := Pattern.run_of_fits fits
  refine ⟨more, fun character member => ?_⟩
  rw [← contains_wordCharacters]
  exact areWord character member

end Words

/-! ## Pieces by kind -/

section Pieces

variable {text : List Char} {found : RuleMatch}

theorem fits_of_findRule? (success : findRule? text = some found) :
    found.rule.pattern.Fits found.lexeme :=
  Pattern.fits_of_match? (findRule?_eq_some success).2

/-- A piece is matched by the pattern that the rules of its kind have. -/
theorem match?_of_kind (success : findRule? text = some found) {kind : TokenKind}
    (isKind : found.rule.kind = kind) {pattern : Pattern}
    (table : ∀ rule ∈ Rule.table, rule.kind = kind → rule.pattern = pattern) :
    pattern.match? text = some (found.lexeme, found.rest) := by
  obtain ⟨member, matched⟩ := findRule?_eq_some success
  rwa [table _ member isKind] at matched

/-- An operator or a parenthesis is written as its sign. -/
theorem lexeme_of_sign? (success : findRule? text = some found) {sign : List Char}
    (stands : found.rule.kind.sign? = some sign) : found.lexeme = sign := by
  have table : ∀ rule ∈ Rule.table, ∀ sign ∈ rule.kind.sign?,
      rule.pattern = sign.map Atom.literal := by
    decide
  have pattern := table _ (findRule?_eq_some success).1 sign stands
  exact Pattern.eq_of_fits_literals (pattern ▸ fits_of_findRule? success)

/-- The rules match ASCII characters only. -/
theorem utf8Size_of_mem_lexeme (success : findRule? text = some found) :
    ∀ character ∈ found.lexeme, character.utf8Size = 1 := by
  have table : ∀ rule ∈ Rule.table, ∀ atom ∈ rule.pattern, Atom.isAscii atom = true := by
    decide
  have ascii := table _ (findRule?_eq_some success).1
  intro character member
  rw [Char.utf8Size_eq_one_iff, UInt32.le_iff_toNat_le]
  exact Pattern.toNat_le_of_fits (fits_of_findRule? success) ascii character member

theorem isBlank_of_mem_lexeme (success : findRule? text = some found)
    (isWhitespace : found.rule.kind = .whitespace) :
    ∀ character ∈ found.lexeme, isBlank character = true := by
  have matched : Pattern.match? [.oneOrMore [.single ' ', .single '\t']] text = _ :=
    match?_of_kind success isWhitespace (by decide)
  obtain ⟨-, blank⟩ := Pattern.run_of_fits (Pattern.fits_of_match? matched)
  intro character member
  rw [← contains_blanks]
  exact blank character member

theorem lexeme_of_register (success : findRule? text = some found)
    (isRegister : found.rule.kind = .register) :
    ∃ name, found.lexeme = '$' :: name ∧ name ≠ [] ∧
      ∀ character ∈ name, character.isAlpha = true := by
  have matched : Pattern.match? [.literal '$', .oneOrMore [Rule.lowercase, Rule.uppercase]] text =
      _ := match?_of_kind success isRegister (by decide)
  obtain ⟨name, same, run⟩ := Pattern.fits_of_match? matched
  obtain ⟨more, letters⟩ := Pattern.run_of_fits run
  refine ⟨name, same, more, fun character member => ?_⟩
  rw [← contains_letters]
  exact letters character member

theorem isDecimal_lexeme (success : findRule? text = some found)
    (isDecimal : found.rule.kind = .decimal) : IsDecimal found.lexeme :=
  isDecimal_of_match? (match?_of_kind success isDecimal (by decide))

theorem isHexadecimal_lexeme (success : findRule? text = some found)
    (isHexadecimal : found.rule.kind = .hexadecimal) : IsHexadecimal found.lexeme :=
  isHexadecimal_of_match? (match?_of_kind success isHexadecimal (by decide))

theorem isWord_lexeme (success : findRule? text = some found)
    (isSymbol : found.rule.kind = .symbol) : IsWord found.lexeme :=
  isWord_of_match? (match?_of_kind success isSymbol (by decide))

end Pieces

end GuestProbe
