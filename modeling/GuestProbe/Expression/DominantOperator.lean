import GuestProbe.Expression.Parentheses

/-! # The dominant operator

An expression without parentheses around it is split at its dominant operator: of the operators
outside all parentheses, the last one among those that bind loosest. Choosing the last one makes
binary operators associate to the left.
-/

namespace GuestProbe

/-- The operators outside all parentheses of a sequence, with their indices. -/
def exposedOperators (tokens : List Token) : List (Token × Nat) :=
  tokens.zipIdx.filter fun (token, index) =>
    token.kind.isOperator && !leavesOpen (tokens.take index)

/-- Of two operators, the one that binds looser; the later one if they bind alike. -/
def looser (chosen : Option (Token × Nat)) (later : Token × Nat) : Option (Token × Nat) :=
  match chosen with
  | none => some later
  | some earlier => if earlier.1.precedence < later.1.precedence then some earlier else some later

/-- The operator to split a sequence at, with its index. -/
def dominantOperator? (tokens : List Token) : Option (Token × Nat) :=
  (exposedOperators tokens).foldl looser none

theorem mem_of_foldl_looser {candidates : List (Token × Nat)} {chosen : Option (Token × Nat)}
    {operator : Token × Nat} (result : candidates.foldl looser chosen = some operator) :
    chosen = some operator ∨ operator ∈ candidates := by
  induction candidates generalizing chosen with
  | nil => exact .inl result
  | cons candidate rest ih =>
    rcases ih result with kept | member
    · cases chosen with
      | none =>
        simp only [looser, Option.some.injEq] at kept
        exact .inr (by simp [kept])
      | some earlier =>
        simp only [looser] at kept
        split at kept
        · exact .inl kept
        · simp only [Option.some.injEq] at kept
          exact .inr (by simp [kept])
    · exact .inr (List.mem_cons_of_mem _ member)

/-- The dominant operator is the token at its index. -/
theorem getElem?_of_dominantOperator? {tokens : List Token} {operator : Token} {index : Nat}
    (dominant : dominantOperator? tokens = some (operator, index)) :
    tokens[index]? = some operator := by
  rcases mem_of_foldl_looser dominant with none | member
  · cases none
  · exact List.mem_zipIdx_iff_getElem?.mp (List.mem_filter.mp member).1

theorem dominantOperator?_lt {tokens : List Token} {operator : Token} {index : Nat}
    (dominant : dominantOperator? tokens = some (operator, index)) : index < tokens.length :=
  (List.getElem?_eq_some_iff.mp (getElem?_of_dominantOperator? dominant)).1

end GuestProbe
