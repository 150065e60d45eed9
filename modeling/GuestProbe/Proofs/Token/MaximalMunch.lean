import GuestProbe.Proofs.Token.Lexeme

/-! # The longest match

The rules are tried in the order of the table, and the first match counts. No other rule matches a
longer text at the same place, so a piece is the longest match of all rules, and the first one in
the table of that length (`RuleMatch.IsLongest`).

Rules that match at the same place either match words (`isWord_or_between`), or start with the same
sign. Only `!=` and `!` do, and the longer one comes first (`pattern_eq_of_sign`). A word is read as
a whole: the rules for numbers end where Unicode ends the word, and leave it to the last rule, which
takes all its ASCII characters, if a number does not end there (`RuleMatch.IsRun`).
-/

namespace GuestProbe

open Text

/-- The match is the one of its rule, and every other rule that matches the text matches less of it,
or as much and comes later. -/
structure RuleMatch.IsLongest (text : List Char) (found : RuleMatch) : Prop where
  listed : Rule.table[found.index]? = some found.rule
  matched : found.rule.pattern.match? text = some (found.lexeme, found.rest)
  prevails : ∀ index rule lexeme rest, Rule.table[index]? = some rule →
    rule.pattern.match? text = some (lexeme, rest) →
    byteLength lexeme < byteLength found.lexeme ∨
      byteLength lexeme = byteLength found.lexeme ∧ found.index ≤ index

/-- The match takes all letters, digits and underscores in a row. They are a number if they have
that form and no Unicode word character follows, and a symbol otherwise. -/
structure RuleMatch.IsRun (text : List Char) (found : RuleMatch) : Prop where
  lexeme : found.lexeme = text.takeWhile isAsciiWordCharacter
  rest : found.rest = text.dropWhile isAsciiWordCharacter
  decimal : found.rule.kind = .decimal ↔ IsDecimal found.lexeme ∧ EndsWord found.rest
  hexadecimal : found.rule.kind = .hexadecimal ↔ IsHexadecimal found.lexeme ∧ EndsWord found.rest
  symbol : found.rule.kind = .symbol ↔ ¬(IsDecimal found.lexeme ∧ EndsWord found.rest) ∧
    ¬(IsHexadecimal found.lexeme ∧ EndsWord found.rest)

/-! ## Words -/

section Words

variable {text : List Char}

theorem isWord_takeWhile (starts : text.head?.any isAsciiWordCharacter = true) :
    IsWord (text.takeWhile isAsciiWordCharacter) := by
  refine ⟨?_, List.all_eq_true.mp List.all_takeWhile⟩
  cases text with
  | nil => cases starts
  | cons first tail =>
    have accepted : isAsciiWordCharacter first = true := starts
    rw [List.takeWhile_cons_of_pos accepted]
    exact List.cons_ne_nil _ _

/-- A run of word characters is read as one piece. -/
theorem exists_isRun (starts : text.head?.any isAsciiWordCharacter = true) :
    ∃ found, findRule? text = some found ∧ found.IsRun text := by
  have whole : text.takeWhile isAsciiWordCharacter ++ text.dropWhile isAsciiWordCharacter = text :=
    List.takeWhile_append_dropWhile
  by_cases decimal : IsDecimal (text.takeWhile isAsciiWordCharacter) ∧
      EndsWord (text.dropWhile isAsciiWordCharacter)
  · have notHexadecimal : ¬IsHexadecimal (text.takeWhile isAsciiWordCharacter) :=
      fun hexadecimal => not_isDecimal_of_isHexadecimal hexadecimal decimal.1
    obtain ⟨index, rule, success, kind⟩ := reads_decimal decimal.1 decimal.2
    rw [whole] at success
    refine ⟨_, success, rfl, rfl, ?_, ?_, ?_⟩ <;> simp [kind, decimal, notHexadecimal]
  by_cases hexadecimal : IsHexadecimal (text.takeWhile isAsciiWordCharacter) ∧
      EndsWord (text.dropWhile isAsciiWordCharacter)
  · have notDecimal := not_isDecimal_of_isHexadecimal hexadecimal.1
    obtain ⟨index, rule, success, kind⟩ := reads_hexadecimal hexadecimal.1 hexadecimal.2
    rw [whole] at success
    refine ⟨_, success, rfl, rfl, ?_, ?_, ?_⟩ <;> simp [kind, notDecimal, hexadecimal]
  · obtain ⟨index, rule, success, kind⟩ := reads_word (isWord_takeWhile starts)
      (refused_dropWhile isAsciiWordCharacter text) decimal hexadecimal
    rw [whole] at success
    refine ⟨_, success, rfl, rfl, ?_, ?_, ?_⟩ <;> simp [kind, decimal, hexadecimal]

/-- A character outside of ASCII is not part of the run, but continues the number. -/
example : (findRule? ['1', '2', 'é', '+']).map (fun found => (found.rule.kind, found.lexeme)) =
    some (.symbol, ['1', '2']) := by decide

end Words

/-! ## Rules that match at the same place -/

section Rules

variable {text lexeme rest : List Char}

/-- The rule that was found stands in the table where the match says, and no rule before it
matches. -/
theorem listed_of_findRule? {found : RuleMatch} (success : findRule? text = some found) :
    Rule.table[found.index]? = some found.rule ∧
      ∀ index < found.index, ∀ rule, Rule.table[index]? = some rule →
        rule.pattern.match? text = none := by
  obtain ⟨earlier, ⟨rule, position⟩, later, split, matched, refused⟩ :=
    List.findSome?_eq_some_iff.mp success
  obtain ⟨⟨lexeme, rest⟩, -, rfl⟩ := Option.map_eq_some_iff.mp matched
  have here : Rule.table.zipIdx[earlier.length]? = some (rule, position) := by
    rw [split, List.getElem?_append_right (Nat.le_refl _), Nat.sub_self, List.getElem?_cons_zero]
  rw [List.getElem?_zipIdx, Option.map_eq_some_iff] at here
  obtain ⟨_, listed, same⟩ := here
  cases same
  rw [Nat.zero_add]
  refine ⟨listed, ?_⟩
  intro index before other listedBefore
  have there : Rule.table.zipIdx[index]? = some (other, index) := by
    rw [List.getElem?_zipIdx, listedBefore, Option.map_some, Nat.zero_add]
  rw [split, List.getElem?_append_left before] at there
  exact Option.map_eq_none_iff.mp (refused _ (List.mem_of_getElem? there))

/-- A rule matches words, or it is one of those between the rules for numbers and symbols. -/
theorem isWord_or_between {rule : Rule} (member : rule ∈ Rule.table)
    (matched : rule.pattern.match? text = some (lexeme, rest)) :
    IsWord lexeme ∨ rule ∈ (Rule.table.take 15).drop 2 := by
  have split : Rule.table = Rule.table.take 2 ++ (Rule.table.take 15).drop 2 ++
    Rule.table.drop 15 := rfl
  rw [split, List.mem_append, List.mem_append] at member
  rcases member with (number | between) | last
  · rcases List.mem_cons.mp number with rfl | number
    · exact .inl (isDecimal_of_match? matched).isWord
    · obtain rfl := List.mem_singleton.mp number
      exact .inl (isHexadecimal_of_match? matched).isWord
  · exact .inr between
  · obtain rfl := List.mem_singleton.mp last
    exact .inl (isWord_of_match? matched)

theorem canStart_of_match? {pattern : Pattern} {first : Char} (head : text.head? = some first)
    (matched : pattern.match? text = some (lexeme, rest)) : pattern.canStart first = true := by
  obtain ⟨after, rfl⟩ := List.head?_eq_some_iff.mp head
  rw [← Bool.not_eq_false]
  intro refused
  cases (Pattern.match?_eq_none_of_head refused after).symm.trans matched

/-- Of two rules that start with the same sign, the later one is that for `!`. -/
theorem pattern_eq_of_sign {sign : Char} (isSign : sign ∈ Rule.signs) {index other : Nat}
    {rule later : Rule} (listed : Rule.table[index]? = some rule)
    (listedLater : Rule.table[other]? = some later) (before : index < other)
    (starts : rule.pattern.canStart sign = true)
    (startsLater : later.pattern.canStart sign = true) : later.pattern = [.literal '!'] := by
  have table : Rule.table.Pairwise fun earlier later => later.pattern = [.literal '!'] ∨
      Rule.signs.all fun sign =>
        !(earlier.pattern.canStart sign && later.pattern.canStart sign) := by
    decide
  obtain ⟨bound, rfl⟩ := List.getElem?_eq_some_iff.mp listed
  obtain ⟨boundLater, rfl⟩ := List.getElem?_eq_some_iff.mp listedLater
  refine (List.pairwise_iff_getElem.mp table index other bound boundLater before).resolve_right ?_
  intro apart
  have refused := List.all_eq_true.mp apart sign isSign
  rw [starts, startsLater] at refused
  cases refused

/-- Where a text starts with a word character, no rule matches more than the run there. -/
theorem byteLength_le_of_word {first : Char} (head : text.head? = some first)
    (isWord : isAsciiWordCharacter first = true) {rule : Rule} (member : rule ∈ Rule.table)
    (matched : rule.pattern.match? text = some (lexeme, rest)) :
    byteLength lexeme ≤ byteLength (text.takeWhile isAsciiWordCharacter) := by
  rcases isWord_or_between member matched with ⟨-, word⟩ | between
  · rw [Pattern.match?_append matched, List.takeWhile_append_of_pos word, byteLength_append]
    exact Nat.le_add_right _ _
  · have starts := canStart_of_match? head matched
    cases (canStart_eq_false_of_word isWord between).symm.trans starts

/-- Where a text does not start with a word character, the rules for words do not match. -/
theorem between_of_not_word {first : Char} (head : text.head? = some first)
    (notWord : isAsciiWordCharacter first = false) {rule : Rule} (member : rule ∈ Rule.table)
    (matched : rule.pattern.match? text = some (lexeme, rest)) :
    rule ∈ (Rule.table.take 15).drop 2 := by
  refine (isWord_or_between member matched).resolve_left fun word => ?_
  obtain ⟨start, after, rfl, isWord⟩ := word.exists_cons
  rw [Pattern.match?_append matched, List.cons_append, List.head?_cons, Option.some.injEq] at head
  subst head
  cases notWord.symm.trans isWord

/-- A rule behind the one that was found does not match more of the text. -/
theorem byteLength_le_of_later {found : RuleMatch} (success : findRule? text = some found)
    {index : Nat} {rule : Rule} (behind : found.index < index)
    (listed : Rule.table[index]? = some rule)
    (matched : rule.pattern.match? text = some (lexeme, rest)) :
    byteLength lexeme ≤ byteLength found.lexeme := by
  have member := List.mem_of_getElem? listed
  obtain ⟨foundMember, foundMatched⟩ := findRule?_eq_some success
  obtain ⟨first, tail, foundLexeme⟩ := List.exists_cons_of_ne_nil (findRule?_ne_nil success)
  have head : text.head? = some first := by
    rw [findRule?_append success, foundLexeme, List.cons_append, List.head?_cons]
  cases isWord : isAsciiWordCharacter first with
  | true =>
    obtain ⟨other, same, isRun⟩ := exists_isRun (by rw [head, Option.any_some, isWord])
    obtain rfl := Option.some.inj (success.symm.trans same)
    rw [isRun.lexeme]
    exact byteLength_le_of_word head isWord member matched
  | false =>
    -- Both rules start with the same sign, so the later one matches that character only.
    have isSign := mem_signs_of_canStart (between_of_not_word head isWord foundMember foundMatched)
      (canStart_of_match? head foundMatched)
    have pattern := pattern_eq_of_sign isSign (listed_of_findRule? success).1 listed behind
      (canStart_of_match? head foundMatched) (canStart_of_match? head matched)
    rw [pattern] at matched
    have single : lexeme = ['!'] := Pattern.eq_of_fits_literals (Pattern.fits_of_match? matched)
    have positive := first.utf8Size_pos
    rw [single, foundLexeme, byteLength_cons, byteLength_cons, byteLength_nil]
    change 1 + 0 ≤ _
    omega

end Rules

theorem isLongest_of_findRule? {text : List Char} {found : RuleMatch}
    (success : findRule? text = some found) : found.IsLongest text := by
  obtain ⟨listed, refused⟩ := listed_of_findRule? success
  refine ⟨listed, (findRule?_eq_some success).2, ?_⟩
  intro index rule lexeme rest listedRule matched
  rcases Nat.lt_trichotomy index found.index with before | rfl | behind
  · cases (refused index before rule listedRule).symm.trans matched
  · obtain rfl := Option.some.inj (listed.symm.trans listedRule)
    cases (findRule?_eq_some success).2.symm.trans matched
    exact .inr ⟨rfl, Nat.le_refl _⟩
  · rcases Nat.lt_or_eq_of_le (byteLength_le_of_later success behind listedRule matched)
      with shorter | same
    · exact .inl shorter
    · exact .inr ⟨same, Nat.le_of_lt behind⟩

/-- The first rule that matches is also the longest match, and a text that starts with a word
character is read as the whole run of them there. -/
theorem findRule?_longest_match (text : List Char) :
    (∀ found, findRule? text = some found → found.IsLongest text) ∧
      (text.head?.any isAsciiWordCharacter = true →
        ∃ found, findRule? text = some found ∧ found.IsRun text) :=
  ⟨fun _ => isLongest_of_findRule?, exists_isRun⟩

end GuestProbe
