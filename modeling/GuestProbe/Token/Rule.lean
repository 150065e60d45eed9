import GuestProbe.Text.Pattern
import GuestProbe.Token.Basic

/-! # The token rules

An expression is cut into pieces by an ordered table of rules. The first rule whose pattern matches
the start of the remaining text gives the next piece, so an operator of two characters precedes its
first character, and the rule for symbols comes last. Patterns do not see the text before the
piece.

Every rule consumes at least one character (`findRule?_rest_lt`), so cutting ends.
-/

namespace GuestProbe

open Text

/-- A pattern and the kind of the tokens it matches. -/
structure Rule where
  pattern : Pattern
  kind : TokenKind

namespace Rule

def digits : CharacterRange := ⟨'0', '9'⟩
def lowercase : CharacterRange := ⟨'a', 'z'⟩
def uppercase : CharacterRange := ⟨'A', 'Z'⟩

/-- The rules in the order in which they are tried. -/
def table : List Rule :=
  [⟨[.oneOrMore [digits], .wordBoundary], .decimal⟩,
    ⟨[.literal '0', .oneOf [.single 'x', .single 'X'],
      .oneOrMore [digits, ⟨'a', 'f'⟩, ⟨'A', 'F'⟩], .wordBoundary], .hexadecimal⟩,
    ⟨[.literal '$', .oneOrMore [lowercase, uppercase]], .register⟩,
    ⟨[.oneOrMore [.single ' ', .single '\t']], .whitespace⟩,
    ⟨[.literal '|', .literal '|'], .or⟩,
    ⟨[.literal '&', .literal '&'], .and⟩,
    ⟨[.literal '=', .literal '='], .equal⟩,
    ⟨[.literal '!', .literal '='], .notEqual⟩,
    ⟨[.literal '+'], .plus⟩,
    ⟨[.literal '-'], .minus⟩,
    ⟨[.literal '*'], .star⟩,
    ⟨[.literal '/'], .slash⟩,
    ⟨[.literal '!'], .not⟩,
    ⟨[.literal '('], .openParen⟩,
    ⟨[.literal ')'], .closeParen⟩,
    ⟨[.wordBoundary, .oneOrMore [lowercase, uppercase, .single '_', digits]], .symbol⟩]

end Rule

/-- A rule that matched: its index in the table, the text it matched and the text after it. -/
structure RuleMatch where
  index : Nat
  rule : Rule
  lexeme : List Char
  rest : List Char

/-- Finds the first rule that matches the start of a text. -/
def findRule? (text : List Char) : Option RuleMatch :=
  Rule.table.zipIdx.findSome? fun (rule, index) =>
    (rule.pattern.match? text).map fun (lexeme, rest) => ⟨index, rule, lexeme, rest⟩

theorem findRule?_eq_some {text : List Char} {found : RuleMatch}
    (success : findRule? text = some found) :
    found.rule ∈ Rule.table ∧ found.rule.pattern.match? text = some (found.lexeme, found.rest) := by
  obtain ⟨⟨rule, index⟩, member, matched⟩ := List.exists_of_findSome?_eq_some success
  obtain ⟨⟨lexeme, rest⟩, split, rfl⟩ := Option.map_eq_some_iff.mp matched
  exact ⟨(List.mem_zipIdx_iff_getElem?.mp member) |> List.mem_of_getElem?, split⟩

/-- A match splits the text into the piece and the rest. -/
theorem findRule?_append {text : List Char} {found : RuleMatch}
    (success : findRule? text = some found) : text = found.lexeme ++ found.rest :=
  Pattern.match?_append (findRule?_eq_some success).2

theorem Rule.consumes {rule : Rule} (member : rule ∈ Rule.table) :
    rule.pattern.any Atom.consumes = true := by
  have all : Rule.table.all fun rule => rule.pattern.any Atom.consumes := by decide
  exact List.all_eq_true.mp all rule member

/-- A piece is never empty. -/
theorem findRule?_ne_nil {text : List Char} {found : RuleMatch}
    (success : findRule? text = some found) : found.lexeme ≠ [] :=
  Pattern.match?_ne_nil (Rule.consumes (findRule?_eq_some success).1) (findRule?_eq_some success).2

theorem findRule?_rest_lt {text : List Char} {found : RuleMatch}
    (success : findRule? text = some found) : found.rest.length < text.length := by
  have positive := List.length_pos_iff.mpr (findRule?_ne_nil success)
  have split := congrArg List.length (findRule?_append success)
  rw [List.length_append] at split
  omega

end GuestProbe
