import GuestProbe.Proofs.Text.Ascii
import GuestProbe.Text.Pattern

/-! # Matching runs of characters

A run takes all accepted characters in a row if it may end after them (`matchRun?_of_ends`). A run
that has to end at a word boundary cannot end inside a word, so it takes a word as a whole or fails
(`matchRun?_eq_none_of_word`). A pattern that cannot start with the first character of a text does
not match it (`Pattern.match?_eq_none_of_head`).
-/

namespace GuestProbe.Text

/-- A text that does not continue a word before it. -/
def EndsWord (rest : List Char) : Prop :=
  rest.head?.any isWordCharacter = false

theorem isWordCharacter_of_isAsciiWordCharacter {character : Char}
    (ascii : isAsciiWordCharacter character = true) : isWordCharacter character = true := by
  rw [isWordCharacter_of_ascii (toNat_lt_of_isAsciiWordCharacter ascii)]
  exact ascii

/-- A class of word characters has none at the end of a word. -/
theorem refused_of_endsWord {accepts : Char → Bool} {rest : List Char}
    (narrow : ∀ character, accepts character = true → isWordCharacter character = true)
    (ends : EndsWord rest) : rest.head?.any accepts = false := by
  cases rest with
  | nil => rfl
  | cons first rest =>
    simp only [EndsWord, List.head?_cons, Option.any_some] at ends ⊢
    cases accepted : accepts first with
    | false => rfl
    | true => exact (narrow first accepted).symm.trans ends

/-! ## Runs -/

/-- Behind all accepted characters in a row stands none. -/
theorem refused_dropWhile (accepts : Char → Bool) (text : List Char) :
    (text.dropWhile accepts).head?.any accepts = false := by
  have stopped := List.head?_dropWhile_not accepts text
  cases after : (text.dropWhile accepts).head? with
  | none => rfl
  | some first => rwa [after] at stopped

theorem matchRun?_eq_none_of_head {accepts : Char → Bool}
    {continuation : Char → List Char → Option (List Char × List Char)} {text : List Char}
    (refused : text.head?.any accepts = false) : matchRun? accepts continuation text = none := by
  cases text with
  | nil => rfl
  | cons first rest =>
    simp only [List.head?_cons, Option.any_some] at refused
    simp [matchRun?, refused]

/-- A run takes all accepted characters in a row if it may end after them. -/
theorem matchRun?_of_ends {accepts : Char → Bool}
    {continuation : Char → List Char → Option (List Char × List Char)} {run rest : List Char}
    (more : run ≠ []) (accepted : ∀ character ∈ run, accepts character = true)
    (ends : rest.head?.any accepts = false)
    (stops : ∀ last ∈ run, continuation last rest = some ([], rest)) :
    matchRun? accepts continuation (run ++ rest) = some (run, rest) := by
  induction run with
  | nil => exact absurd rfl more
  | cons first tail ih =>
    rw [List.cons_append, matchRun?, if_pos (accepted first List.mem_cons_self)]
    by_cases last : tail = []
    · subst last
      rw [List.nil_append, matchRun?_eq_none_of_head ends, stops first List.mem_cons_self]
      rfl
    · have acceptedTail := fun character member =>
        accepted character (List.mem_cons_of_mem first member)
      have stopsTail := fun last member => stops last (List.mem_cons_of_mem first member)
      rw [ih last acceptedTail stopsTail]
      rfl

/-- The boundary condition after the last character of a run. -/
theorem matchAfter?_wordBoundary {last : Char} (isWord : isWordCharacter last = true)
    (rest : List Char) :
    Pattern.matchAfter? [.wordBoundary] (some last) rest =
      if rest.head?.any isWordCharacter = true then none else some ([], rest) := by
  simp only [Pattern.matchAfter?, atWordBoundary, Option.any_some, isWord]
  cases rest.head?.any isWordCharacter <;> rfl

/-- A run that ends at a word boundary does not end inside a word, so it finds no place to end if
it cannot reach the end of the word. -/
theorem matchRun?_eq_none_of_word {accepts : Char → Bool} {word rest : List Char}
    (narrow : ∀ character, accepts character = true → isWordCharacter character = true)
    (isWord : ∀ character ∈ word, isWordCharacter character = true) (ends : EndsWord rest)
    (refused : ¬(word ≠ [] ∧ ∀ character ∈ word, accepts character = true)) :
    matchRun? accepts (fun last after => Pattern.matchAfter? [.wordBoundary] (some last) after)
      (word ++ rest) = none := by
  induction word with
  | nil => exact matchRun?_eq_none_of_head (refused_of_endsWord narrow ends)
  | cons first tail ih =>
    rw [List.cons_append, matchRun?]
    by_cases accepted : accepts first = true
    case neg => exact if_neg accepted
    have refusedTail : ¬∀ character ∈ tail, accepts character = true := by
      intro acceptedTail
      exact refused ⟨List.cons_ne_nil first tail, List.forall_mem_cons.mpr ⟨accepted, acceptedTail⟩⟩
    have isWordTail := fun character member => isWord character (List.mem_cons_of_mem first member)
    have continued : (tail ++ rest).head?.any isWordCharacter = true := by
      cases tail with
      | nil => exact absurd (List.forall_mem_nil _) refusedTail
      | cons second _ => exact isWordTail second List.mem_cons_self
    rw [if_pos accepted, ih isWordTail fun whole => refusedTail whole.2,
      matchAfter?_wordBoundary (isWord first List.mem_cons_self), if_pos continued]
    rfl

/-! ## First characters -/

/-- A match of the pattern can start with the character. -/
def Pattern.canStart : Pattern → Char → Bool
  | [], _ => true
  | .literal character :: _, first => first == character
  | .oneOf characters :: _, first => characters.contains first
  | .oneOrMore characters :: _, first => characters.contains first
  | .wordBoundary :: pattern, first => canStart pattern first

theorem Pattern.matchAfter?_eq_none_of_head {pattern : Pattern} {first : Char}
    (refused : pattern.canStart first = false) (previous : Option Char) (rest : List Char) :
    pattern.matchAfter? previous (first :: rest) = none := by
  induction pattern with
  | nil => cases refused
  | cons atom pattern ih =>
    cases atom with
    | literal character =>
      exact if_neg (by simpa [canStart] using refused)
    | oneOf characters =>
      exact if_neg (Bool.eq_false_iff.mp refused)
    | oneOrMore characters => exact matchRun?_eq_none_of_head refused
    | wordBoundary =>
      simp only [matchAfter?, ih refused, ite_self]

/-- A pattern does not match a text that it cannot start with. -/
theorem Pattern.match?_eq_none_of_head {pattern : Pattern} {first : Char}
    (refused : pattern.canStart first = false) (rest : List Char) :
    pattern.match? (first :: rest) = none :=
  matchAfter?_eq_none_of_head refused none rest

end GuestProbe.Text
