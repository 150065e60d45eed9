import GuestProbe.Token.Basic

/-! # Parentheses in token sequences

`unpaired?` finds a parenthesis without a partner by keeping the open ones on a stack.
`enclosed?` removes a pair of parentheses around a whole sequence, which requires that the first
and the last token are partners. `leavesOpen` tells whether a sequence ends inside a parenthesis
that it opened.
-/

namespace GuestProbe

/-- Finds an unpaired parenthesis after some that are still open. The offsets of the open ones are
given, the innermost first. -/
def unpairedAfter? : List Nat → List Token → Option Nat
  | pending, [] => pending.head?
  | pending, token :: rest =>
      match token.kind, pending with
      | .openParen, pending => unpairedAfter? (token.offset :: pending) rest
      | .closeParen, [] => some token.offset
      | .closeParen, _ :: outer => unpairedAfter? outer rest
      | _, pending => unpairedAfter? pending rest

/-- The offset of a parenthesis without a partner: the first closing one that has none, or else the
last opening one. -/
def unpaired? (tokens : List Token) : Option Nat :=
  unpairedAfter? [] tokens

/-- The number of open parentheses after a sequence that starts inside the given number of them,
unless one of its closing parentheses has no partner. -/
def depthAfter? : Nat → List Token → Option Nat
  | depth, [] => some depth
  | depth, token :: rest =>
      match token.kind, depth with
      | .openParen, depth => depthAfter? (depth + 1) rest
      | .closeParen, 0 => none
      | .closeParen, outer + 1 => depthAfter? outer rest
      | _, depth => depthAfter? depth rest

/-- Every parenthesis of the sequence has its partner within it. -/
def isBalanced (tokens : List Token) : Bool :=
  depthAfter? 0 tokens == some 0

/-- The sequence between a first and a last token that are partners. -/
def enclosed? : List Token → Option (List Token)
  | [] => none
  | first :: rest =>
      if first.kind = .openParen ∧ rest.getLast?.map Token.kind = some .closeParen ∧
          isBalanced rest.dropLast then
        some rest.dropLast
      else none

theorem enclosed?_eq_some_iff (tokens interior : List Token) :
    enclosed? tokens = some interior ↔
      ∃ first last, tokens = first :: interior ++ [last] ∧ first.kind = .openParen ∧
        last.kind = .closeParen ∧ isBalanced interior = true := by
  cases tokens with
  | nil => simp [enclosed?]
  | cons first rest =>
    simp only [enclosed?, Option.ite_none_right_eq_some, Option.some.injEq]
    constructor
    · rintro ⟨⟨opening, closing, balanced⟩, rfl⟩
      obtain ⟨last, ends, closes⟩ := Option.map_eq_some_iff.mp closing
      obtain ⟨interior, rfl⟩ := List.getLast?_eq_some_iff.mp ends
      rw [List.dropLast_concat] at balanced ⊢
      exact ⟨first, last, rfl, opening, closes, balanced⟩
    · rintro ⟨opening, closing, same, opens, closes, balanced⟩
      simp only [List.cons_append, List.cons.injEq] at same
      obtain ⟨rfl, rfl⟩ := same
      simp [opens, closes, balanced]

theorem length_of_enclosed? {tokens interior : List Token}
    (inside : enclosed? tokens = some interior) : tokens.length = interior.length + 2 := by
  obtain ⟨first, last, rfl, -⟩ := (enclosed?_eq_some_iff tokens interior).mp inside
  simp

/-- Whether a parenthesis stays open before a position at which the given number of closing ones
already found to its right await their partners. The tokens are taken from the last to the first. -/
def opensBefore : Nat → List Token → Bool
  | _, [] => false
  | awaiting, token :: earlier =>
      match token.kind, awaiting with
      | .openParen, 0 => true
      | .openParen, awaiting + 1 => opensBefore awaiting earlier
      | .closeParen, awaiting => opensBefore (awaiting + 1) earlier
      | _, awaiting => opensBefore awaiting earlier

/-- Whether the sequence opens a parenthesis that it does not close. -/
def leavesOpen (tokens : List Token) : Bool :=
  opensBefore 0 tokens.reverse

end GuestProbe
