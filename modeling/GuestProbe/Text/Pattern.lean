import GuestProbe.Text.WordCharacter

/-! # Anchored text patterns

A pattern is a sequence of atoms and is matched against the start of a text. Repetition is greedy
and gives characters back one at a time when the atoms after it fail, so the result is the first
match in that order. `Pattern.match?` returns the matched text and the text after it;
`Pattern.source` is the pattern as it is usually written.

A match always splits the text (`match?_append`), and a pattern with an atom other than a word
boundary never matches the empty text (`match?_ne_nil`).
-/

namespace GuestProbe.Text

/-- An inclusive range of characters. -/
structure CharacterRange where
  first : Char
  last : Char
deriving DecidableEq, Repr

def CharacterRange.contains (range : CharacterRange) (character : Char) : Bool :=
  range.first ≤ character && character ≤ range.last

/-- The range of a single character. -/
def CharacterRange.single (character : Char) : CharacterRange :=
  ⟨character, character⟩

/-- A set of characters, as ranges in the order in which they are written. -/
abbrev CharacterClass := List CharacterRange

def CharacterClass.contains (characters : CharacterClass) (character : Char) : Bool :=
  characters.any (·.contains character)

/-- A piece of a pattern. All but the word boundary consume text. -/
inductive Atom where
  | literal (character : Char)
  | oneOf (characters : CharacterClass)
  | oneOrMore (characters : CharacterClass)
  | wordBoundary
deriving DecidableEq, Repr

def Atom.consumes : Atom → Bool
  | .wordBoundary => false
  | _ => true

abbrev Pattern := List Atom

/-- Puts a consumed character in front of a match. -/
def consume (character : Char) (found : Option (List Char × List Char)) :
    Option (List Char × List Char) :=
  found.map fun (lexeme, rest) => (character :: lexeme, rest)

theorem consume_eq_some_iff (character : Char) (found : Option (List Char × List Char))
    (lexeme rest : List Char) :
    consume character found = some (lexeme, rest) ↔
      ∃ tail, lexeme = character :: tail ∧ found = some (tail, rest) := by
  rcases found with _ | ⟨tail, after⟩
  · simp [consume]
  · simp only [consume, Option.map_some, Option.some.injEq, Prod.mk.injEq]
    constructor
    · rintro ⟨rfl, rfl⟩
      exact ⟨tail, rfl, rfl, rfl⟩
    · rintro ⟨inner, rfl, rfl, rfl⟩
      exact ⟨rfl, rfl⟩

/-- Consumes accepted characters, at least one and as many as the continuation lets it. The
continuation gets the last consumed character and the remaining text. -/
def matchRun? (accepts : Char → Bool)
    (continuation : Char → List Char → Option (List Char × List Char)) :
    List Char → Option (List Char × List Char)
  | [] => none
  | first :: rest =>
      if accepts first then
        consume first ((matchRun? accepts continuation rest).or (continuation first rest))
      else none

/-- Whether exactly one of two neighbouring positions of a text holds a word character. -/
def atWordBoundary (previous next : Option Char) : Bool :=
  previous.any isWordCharacter != next.any isWordCharacter

namespace Pattern

/-- Matches a pattern after a given character, which is absent at the start of the text. -/
def matchAfter? : Pattern → Option Char → List Char → Option (List Char × List Char)
  | [], _, text => some ([], text)
  | .literal _ :: _, _, [] => none
  | .literal character :: pattern, _, first :: rest =>
      if first = character then consume first (matchAfter? pattern (some first) rest) else none
  | .oneOf _ :: _, _, [] => none
  | .oneOf characters :: pattern, _, first :: rest =>
      if characters.contains first then consume first (matchAfter? pattern (some first) rest)
      else none
  | .oneOrMore characters :: pattern, _, text =>
      matchRun? characters.contains (fun last rest => matchAfter? pattern (some last) rest) text
  | .wordBoundary :: pattern, previous, text =>
      if atWordBoundary previous text.head? then matchAfter? pattern previous text else none

/-- The first match of a pattern at the start of a text, as the matched text and the rest. -/
def match? (pattern : Pattern) (text : List Char) : Option (List Char × List Char) :=
  matchAfter? pattern none text

end Pattern

theorem matchRun?_append {accepts : Char → Bool}
    {continuation : Char → List Char → Option (List Char × List Char)}
    (splits : ∀ last text lexeme rest, continuation last text = some (lexeme, rest) →
      text = lexeme ++ rest)
    {text lexeme rest : List Char}
    (found : matchRun? accepts continuation text = some (lexeme, rest)) :
    text = lexeme ++ rest ∧ lexeme ≠ [] := by
  induction text generalizing lexeme with
  | nil => cases found
  | cons first after ih =>
    simp only [matchRun?] at found
    split at found
    · obtain ⟨tail, rfl, inner⟩ := (consume_eq_some_iff _ _ _ _).mp found
      refine ⟨?_, by simp⟩
      rcases Option.or_eq_some_iff.mp inner with longer | ⟨-, stop⟩
      · rw [(ih longer).1, List.cons_append]
      · rw [splits _ _ _ _ stop, List.cons_append]
    · cases found

namespace Pattern

theorem matchAfter?_append (pattern : Pattern) (previous : Option Char)
    (text lexeme rest : List Char)
    (found : matchAfter? pattern previous text = some (lexeme, rest)) :
    text = lexeme ++ rest ∧ (pattern.any Atom.consumes = true → lexeme ≠ []) := by
  induction pattern generalizing previous text lexeme rest with
  | nil =>
    simp only [matchAfter?, Option.some.injEq, Prod.mk.injEq] at found
    obtain ⟨rfl, rfl⟩ := found
    simp
  | cons atom pattern ih =>
    cases atom with
    | literal character =>
      cases text with
      | nil => cases found
      | cons first after =>
        simp only [matchAfter?] at found
        split at found
        · obtain ⟨tail, rfl, inner⟩ := (consume_eq_some_iff _ _ _ _).mp found
          exact ⟨by rw [(ih _ _ _ _ inner).1, List.cons_append], by simp⟩
        · cases found
    | oneOf characters =>
      cases text with
      | nil => cases found
      | cons first after =>
        simp only [matchAfter?] at found
        split at found
        · obtain ⟨tail, rfl, inner⟩ := (consume_eq_some_iff _ _ _ _).mp found
          exact ⟨by rw [(ih _ _ _ _ inner).1, List.cons_append], by simp⟩
        · cases found
    | oneOrMore characters =>
      have split := matchRun?_append
        (fun last text lexeme rest inner => (ih (some last) text lexeme rest inner).1) found
      exact ⟨split.1, fun _ => split.2⟩
    | wordBoundary =>
      simp only [matchAfter?] at found
      split at found
      · exact ⟨(ih _ _ _ _ found).1, by simpa [Atom.consumes] using (ih _ _ _ _ found).2⟩
      · cases found

/-- A match splits the text into the matched text and the rest. -/
theorem match?_append {pattern : Pattern} {text lexeme rest : List Char}
    (found : pattern.match? text = some (lexeme, rest)) : text = lexeme ++ rest :=
  (matchAfter?_append pattern none text lexeme rest found).1

theorem match?_ne_nil {pattern : Pattern} (consuming : pattern.any Atom.consumes = true)
    {text lexeme rest : List Char} (found : pattern.match? text = some (lexeme, rest)) :
    lexeme ≠ [] :=
  (matchAfter?_append pattern none text lexeme rest found).2 consuming

end Pattern

/-- The characters that stand for themselves in a pattern only after a backslash. -/
def patternOperators : List Char :=
  ['\\', '.', '+', '*', '?', '(', ')', '|', '[', ']', '{', '}', '^', '$']

/-- A character as it is written in a pattern. -/
def characterSource (character : Char) : String :=
  if character = '\t' then "\\t"
  else if patternOperators.contains character then "\\" ++ character.toString
  else character.toString

def CharacterRange.source (range : CharacterRange) : String :=
  if range.first = range.last then characterSource range.first
  else characterSource range.first ++ "-" ++ characterSource range.last

def CharacterClass.source (characters : CharacterClass) : String :=
  "[" ++ String.join (characters.map CharacterRange.source) ++ "]"

def Atom.source : Atom → String
  | .literal character => characterSource character
  | .oneOf characters => characters.source
  | .oneOrMore characters => characters.source ++ "+"
  | .wordBoundary => "\\b"

/-- A pattern in the usual notation for regular expressions. -/
def Pattern.source (pattern : Pattern) : String :=
  String.join (pattern.map Atom.source)

end GuestProbe.Text
