import GuestProbe.Expression.DominantOperator
import GuestProbe.Proofs.Expression.Nesting

/-! # Where sequences are split

The dominant operator is characterized without the search for it: it is exposed, no exposed
operator binds looser, and none to its right binds alike (`dominantOperator?_eq_some_iff`). The
exposed operators of two balanced sequences are those of the whole, with the indices of the second
sequence shifted (`mem_exposedOperators_append_iff`).
-/

namespace GuestProbe

theorem mem_exposedOperators_iff (tokens : List Token) (operator : Token) (index : Nat) :
    (operator, index) ∈ exposedOperators tokens ↔
      tokens[index]? = some operator ∧ operator.kind.isOperator = true ∧
        leavesOpen (tokens.take index) = false := by
  simp [exposedOperators, List.mem_filter, List.mk_mem_zipIdx_iff_getElem?]

theorem lt_length_of_mem_exposedOperators {tokens : List Token} {operator : Token} {index : Nat}
    (exposed : (operator, index) ∈ exposedOperators tokens) : index < tokens.length := by
  obtain ⟨found, -, -⟩ := (mem_exposedOperators_iff ..).mp exposed
  exact (List.getElem?_eq_some_iff.mp found).1

/-- In a balanced sequence the exposed operators are those after a balanced part. -/
theorem mem_exposedOperators_iff_of_isBalanced {tokens : List Token}
    (balanced : isBalanced tokens = true) (operator : Token) (index : Nat) :
    (operator, index) ∈ exposedOperators tokens ↔
      tokens[index]? = some operator ∧ operator.kind.isOperator = true ∧
        isBalanced (tokens.take index) = true := by
  rw [mem_exposedOperators_iff, leavesOpen_take_eq_false_iff balanced]

theorem pairwise_exposedOperators (tokens : List Token) :
    (exposedOperators tokens).Pairwise fun earlier later => earlier.2 < later.2 := by
  refine List.Pairwise.filter _ (List.Pairwise.of_map Prod.snd (fun _ _ less => less) ?_)
  rw [List.zipIdx_map_snd]
  exact List.pairwise_lt_range'

/-! ## Choosing among candidates -/

/-- An operator binds looser than another one, or alike and does not stand before it. -/
def Preferred (chosen other : Token × Nat) : Prop :=
  chosen.1.precedence < other.1.precedence ∨
    chosen.1.precedence = other.1.precedence ∧ other.2 ≤ chosen.2

theorem Preferred.refl (candidate : Token × Nat) : Preferred candidate candidate :=
  .inr ⟨rfl, Nat.le_refl _⟩

theorem Preferred.trans {first second third : Token × Nat} (left : Preferred first second)
    (right : Preferred second third) : Preferred first third := by
  unfold Preferred at *
  omega

theorem Preferred.index_eq {first second : Token × Nat} (left : Preferred first second)
    (right : Preferred second first) : first.2 = second.2 := by
  unfold Preferred at *
  omega

/-- The choice between an operator and a later one is preferred to both. -/
theorem looser_some {earlier later : Token × Nat} (order : earlier.2 < later.2) :
    ∃ chosen, looser (some earlier) later = some chosen ∧ (chosen = earlier ∨ chosen = later) ∧
      Preferred chosen earlier ∧ Preferred chosen later := by
  by_cases binds : earlier.1.precedence < later.1.precedence
  · exact ⟨earlier, if_pos binds, .inl rfl, .refl _, .inl binds⟩
  · refine ⟨later, if_neg binds, .inr rfl, ?_, .refl _⟩
    unfold Preferred
    omega

/-- The choice among operators in order is one of them and preferred to all. -/
theorem foldl_looser {earlier : Token × Nat} {candidates : List (Token × Nat)}
    (ordered : (earlier :: candidates).Pairwise fun earlier later => earlier.2 < later.2) :
    ∃ chosen, candidates.foldl looser (some earlier) = some chosen ∧
      chosen ∈ earlier :: candidates ∧ ∀ other ∈ earlier :: candidates, Preferred chosen other := by
  induction candidates generalizing earlier with
  | nil =>
    refine ⟨earlier, rfl, List.mem_cons_self, ?_⟩
    intro other member
    rw [List.mem_singleton.mp member]
    exact .refl earlier
  | cons later rest ih =>
    obtain ⟨before, orderedRest⟩ := List.pairwise_cons.mp ordered
    obtain ⟨kept, keeps, source, overEarlier, overLater⟩ :=
      looser_some (before later List.mem_cons_self)
    have orderedKept : (kept :: rest).Pairwise fun earlier later => earlier.2 < later.2 := by
      obtain ⟨beforeRest, tail⟩ := List.pairwise_cons.mp orderedRest
      refine List.pairwise_cons.mpr ⟨?_, tail⟩
      intro other member
      rcases source with rfl | rfl
      · exact before other (List.mem_cons_of_mem _ member)
      · exact beforeRest other member
    obtain ⟨chosen, result, member, best⟩ := ih orderedKept
    refine ⟨chosen, by rw [List.foldl_cons, keeps, result], ?_, ?_⟩
    · rcases List.mem_cons.mp member with rfl | later
      · rcases source with rfl | rfl <;> simp
      · simp [later]
    · intro other among
      have overKept := best kept List.mem_cons_self
      rcases List.mem_cons.mp among with rfl | among
      · exact overKept.trans overEarlier
      rcases List.mem_cons.mp among with rfl | among
      · exact overKept.trans overLater
      · exact best other (List.mem_cons_of_mem _ among)

/-! ## The dominant operator -/

theorem dominantOperator?_eq_none_iff (tokens : List Token) :
    dominantOperator? tokens = none ↔ exposedOperators tokens = [] := by
  unfold dominantOperator?
  cases candidates : exposedOperators tokens with
  | nil => simp
  | cons first rest =>
    have ordered := pairwise_exposedOperators tokens
    rw [candidates] at ordered
    obtain ⟨chosen, result, -, -⟩ := foldl_looser ordered
    rw [List.foldl_cons]
    simp [looser, result]

/-- The dominant operator is the exposed operator that is preferred to all exposed ones. -/
theorem dominantOperator?_eq_some_iff (tokens : List Token) (operator : Token) (index : Nat) :
    dominantOperator? tokens = some (operator, index) ↔
      (operator, index) ∈ exposedOperators tokens ∧
        ∀ other ∈ exposedOperators tokens, Preferred (operator, index) other := by
  have found : ∀ candidate ∈ exposedOperators tokens, tokens[candidate.2]? = some candidate.1 :=
    fun candidate member => ((mem_exposedOperators_iff ..).mp member).1
  have ordered := pairwise_exposedOperators tokens
  unfold dominantOperator?
  cases candidates : exposedOperators tokens with
  | nil => simp
  | cons first rest =>
    rw [candidates] at found ordered
    obtain ⟨chosen, result, member, best⟩ := foldl_looser ordered
    rw [List.foldl_cons]
    change List.foldl looser (some first) rest = _ ↔ _
    rw [result, Option.some.injEq]
    constructor
    · rintro rfl
      exact ⟨member, best⟩
    · rintro ⟨exposed, preferred⟩
      -- both are preferred to each other, so they stand at one index
      have same := (best _ exposed).index_eq (preferred _ member)
      have tokenSame := (found _ member).symm.trans (same ▸ found _ exposed)
      exact Prod.ext (Option.some.inj tokenSame) same

/-! ## Exposed operators of composed sequences -/

theorem mem_exposedOperators_append_iff {left right : List Token}
    (balancedLeft : isBalanced left = true) (balancedRight : isBalanced right = true)
    (operator : Token) (index : Nat) :
    (operator, index) ∈ exposedOperators (left ++ right) ↔
      (operator, index) ∈ exposedOperators left ∨
        ∃ offset, index = left.length + offset ∧
          (operator, offset) ∈ exposedOperators right := by
  have balanced := (isBalanced_append_iff balancedLeft right).mpr balancedRight
  simp only [mem_exposedOperators_iff_of_isBalanced balanced,
    mem_exposedOperators_iff_of_isBalanced balancedLeft,
    mem_exposedOperators_iff_of_isBalanced balancedRight]
  by_cases inside : index < left.length
  · have notLater : ∀ offset, index ≠ left.length + offset := by omega
    rw [List.getElem?_append_left inside, List.take_append_of_le_length (Nat.le_of_lt inside)]
    simp [notLater]
  · obtain ⟨offset, rfl⟩ := Nat.exists_eq_add_of_le (Nat.not_lt.mp inside)
    rw [List.getElem?_append_right (by omega), Nat.add_sub_cancel_left, List.take_length_add_append,
      isBalanced_append_iff balancedLeft]
    simp

/-- A token that is no parenthesis adds at most itself to the exposed operators after it. -/
theorem mem_exposedOperators_cons_iff {token : Token} {rest : List Token}
    (notOpen : token.kind ≠ .openParen) (notClose : token.kind ≠ .closeParen)
    (balanced : isBalanced rest = true) (operator : Token) (index : Nat) :
    (operator, index) ∈ exposedOperators (token :: rest) ↔
      (operator = token ∧ index = 0 ∧ token.kind.isOperator = true) ∨
        ∃ offset, index = offset + 1 ∧ (operator, offset) ∈ exposedOperators rest := by
  have whole := (isBalanced_cons_iff notOpen notClose rest).mpr balanced
  rw [mem_exposedOperators_iff_of_isBalanced whole]
  simp only [mem_exposedOperators_iff_of_isBalanced balanced]
  cases index with
  | zero =>
    rw [List.getElem?_cons_zero, Option.some.injEq, List.take_zero]
    constructor
    · rintro ⟨rfl, isOperator, -⟩
      exact .inl ⟨rfl, rfl, isOperator⟩
    · rintro (⟨rfl, -, isOperator⟩ | ⟨offset, impossible, -⟩)
      · exact ⟨rfl, isOperator, rfl⟩
      · omega
  | succ offset =>
    rw [List.getElem?_cons_succ, List.take_succ_cons, isBalanced_cons_iff notOpen notClose]
    simp

/-- Parentheses around a balanced sequence hide its operators. -/
theorem exposedOperators_grouped {opening closing : Token} {interior : List Token}
    (opens : opening.kind = .openParen) (closes : closing.kind = .closeParen)
    (balanced : isBalanced interior = true) :
    exposedOperators (opening :: interior ++ [closing]) = [] := by
  rw [List.eq_nil_iff_forall_not_mem]
  rintro ⟨operator, index⟩ exposed
  have whole := isBalanced_grouped opens closes balanced
  obtain ⟨found, isOperator, before⟩ :=
    (mem_exposedOperators_iff_of_isBalanced whole operator index).mp exposed
  cases index with
  | zero =>
    cases found
    rw [opens] at isOperator
    cases isOperator
  | succ offset =>
    rw [List.cons_append, List.getElem?_cons_succ] at found
    by_cases inside : offset ≤ interior.length
    · -- the opening parenthesis is still open before every token up to the closing one
      rw [List.cons_append, List.take_succ_cons, List.take_append_of_le_length inside] at before
      have rest : isBalanced (interior.take offset ++ interior.drop offset) = true := by
        rw [List.take_append_drop]
        exact balanced
      exact not_isBalanced_of_open_left opens before rest
    · have length := (List.getElem?_eq_some_iff.mp found).1
      rw [List.length_append, List.length_singleton] at length
      omega

end GuestProbe
