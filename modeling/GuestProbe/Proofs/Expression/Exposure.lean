import GuestProbe.Proofs.Expression.Pairing
import GuestProbe.Proofs.Guarded.Range

/-! # What stands outside parentheses

The decisions about a range of tokens scan it for parentheses in three ways: from the right for one
that is still open (`leavesOpen`), from the left between two that may enclose it (`enclosed?`), and
once for each operator (`dominantOperator?`). Partners are a relation between the indices of the
whole sequence (`partners_iff`), and all three scans agree with it (`scans_find_partners`): a range
leaves a parenthesis open if one has no partner in it, it is enclosed if its first and its last
token are partners, and it is split at the last one of the operators outside parentheses that bind
loosest.

Nothing is assumed about the parentheses of a range. If they are balanced, an operator is outside
exactly if it does not stand between partners (`outside_iff_of_balanced`).
-/

namespace GuestProbe

/-! ## Ranges -/

section Ranges

variable {Element : Type} (elements : List Element) (first stop : Nat)

theorem getElem?_extract (index : Nat) :
    (elements.extract first stop)[index]? =
      if first + index < stop then elements[first + index]? else none := by
  rw [List.extract_eq_take_drop, List.getElem?_take, List.getElem?_drop]
  congr 1
  exact propext (by omega)

theorem extract_extract (inner : Nat) {outer : Nat} (within : first + outer ≤ stop) :
    (elements.extract first stop).extract inner outer =
      elements.extract (first + inner) (first + outer) := by
  simp only [List.extract_eq_take_drop, List.drop_take, List.take_take, List.drop_drop]
  congr 1
  omega

end Ranges

/-! ## Partners by their indices -/

section Partners

variable {tokens : List Token} {first second index : Nat}

theorem partners_iff (tokens : List Token) (first second : Nat) :
    Partners tokens first second ↔
      (∃ token, tokens[first]? = some token ∧ token.kind = .openParen) ∧
        (∃ token, tokens[second]? = some token ∧ token.kind = .closeParen) ∧
          first < second ∧ Balanced (tokens.extract (first + 1) second) := by
  constructor
  · intro partners
    refine ⟨partners.opens, partners.closes, ?_⟩
    obtain ⟨before, opening, interior, closing, after, rfl, -, -, inside, rfl, rfl⟩ := partners
    have occurs : OccursAt (opening :: interior)
        (before ++ opening :: (interior ++ closing :: after)) before.length :=
      ⟨before, closing :: after, by simp, rfl⟩
    rw [occurs.tail.extract]
    exact ⟨by omega, inside⟩
  · rintro ⟨⟨opening, atFirst, opens⟩, ⟨closing, atSecond, closes⟩, order, inside⟩
    obtain ⟨distance, rfl⟩ := Nat.exists_eq_add_of_lt order
    have bound := (List.getElem?_eq_some_iff.mp atSecond).1
    have behind : (tokens.drop (first + 1))[distance]? = some closing := by
      rw [List.getElem?_drop, Nat.add_right_comm, atSecond]
    have length : first + distance + 1 - (first + 1) = distance := by omega
    rw [List.extract_eq_take_drop, length] at inside
    have whole := eq_take_append_drop_of_getElem? atFirst
    rw [eq_take_append_drop_of_getElem? behind] at whole
    refine ⟨_, opening, _, closing, _, whole, opens, closes, inside, ?_, ?_⟩
    · rw [List.length_take_of_le (by omega)]
    · rw [List.length_take_of_le (by omega),
        List.length_take_of_le (by rw [List.length_drop]; omega)]
      omega

theorem Partners.lt (partners : Partners tokens first second) : first < second :=
  ((partners_iff ..).mp partners).2.2.1

/-- A parenthesis is not closed again behind its partner. -/
theorem Partners.not_lt {other : Nat} (partners : Partners tokens first second)
    (again : Partners tokens first other) : ¬second < other := by
  intro further
  obtain ⟨-, ⟨closing, found, closes⟩, order, inside⟩ := (partners_iff ..).mp partners
  obtain ⟨-, -, -, longer⟩ := (partners_iff ..).mp again
  have place : first + 1 + (second - (first + 1)) = second := by omega
  have behind : (tokens.extract (first + 1) other)[second - (first + 1)]? = some closing := by
    rw [getElem?_extract, place, if_pos further, found]
  have front : (tokens.extract (first + 1) other).take (second - (first + 1)) =
      tokens.extract (first + 1) second := by
    rw [List.extract_eq_take_drop, List.extract_eq_take_drop, List.take_take]
    congr 1
    omega
  rw [eq_take_append_drop_of_getElem? behind, front] at longer
  exact inside.not_append_closing closes _ longer

/-- A parenthesis has one partner at most. -/
theorem Partners.unique {other : Nat} (partners : Partners tokens first second)
    (again : Partners tokens first other) : second = other :=
  Nat.le_antisymm (Nat.not_lt.mp (again.not_lt partners)) (Nat.not_lt.mp (partners.not_lt again))

theorem IsPaired.exists_partner (paired : IsPaired tokens index) {token : Token}
    (found : tokens[index]? = some token) (opens : token.kind = .openParen) :
    ∃ partner, Partners tokens index partner := by
  obtain ⟨other, partners | partners⟩ := paired
  · exact ⟨other, partners⟩
  · obtain ⟨closing, same, closes⟩ := partners.closes
    cases found.symm.trans same
    cases opens.symm.trans closes

/-- The partners in a range are those in the whole sequence. -/
theorem partners_extract_iff (start stop : Nat) :
    Partners (tokens.extract start stop) first second ↔
      Partners tokens (start + first) (start + second) ∧ start + second < stop := by
  simp only [partners_iff, getElem?_extract, Option.ite_none_right_eq_some]
  constructor
  · rintro ⟨⟨opening, ⟨-, atFirst⟩, opens⟩, ⟨closing, ⟨within, atSecond⟩, closes⟩, order, inside⟩
    rw [extract_extract _ _ _ _ (Nat.le_of_lt within)] at inside
    exact ⟨⟨⟨opening, atFirst, opens⟩, ⟨closing, atSecond, closes⟩, by omega, inside⟩, within⟩
  · rintro ⟨⟨⟨opening, atFirst, opens⟩, ⟨closing, atSecond, closes⟩, order, inside⟩, within⟩
    rw [extract_extract _ _ _ _ (Nat.le_of_lt within)]
    exact ⟨⟨opening, ⟨by omega, atFirst⟩, opens⟩, ⟨closing, ⟨within, atSecond⟩, closes⟩, by omega,
      inside⟩

end Partners

/-! ## Open parentheses -/

/-- The token at the first index opens a parenthesis that is still open before the second index. -/
def IsOpenAt (tokens : List Token) (position index : Nat) : Prop :=
  (∃ token, tokens[position]? = some token ∧ token.kind = .openParen) ∧ position < index ∧
    ∀ partner, Partners tokens position partner → index ≤ partner

/-- A range of the tokens has no partner for a parenthesis that is open at its end. -/
theorem unpaired_extract_iff (tokens : List Token) (start stop index : Nat) :
    Unpaired (tokens.extract start stop) .openParen index ↔
      IsOpenAt tokens (start + index) stop := by
  simp only [Unpaired, IsOpenAt, getElem?_extract, Option.ite_none_right_eq_some]
  constructor
  · rintro ⟨⟨opening, ⟨within, found⟩, opens⟩, lacks⟩
    refine ⟨⟨opening, found, opens⟩, within, fun partner partners => Nat.not_lt.mp fun ends => ?_⟩
    obtain ⟨other, rfl⟩ := Nat.exists_eq_add_of_le (Nat.le_trans (Nat.le_add_right start index)
      (Nat.le_of_lt partners.lt))
    exact lacks ⟨other, .inl ((partners_extract_iff start stop).mpr ⟨partners, ends⟩)⟩
  · rintro ⟨⟨opening, found, opens⟩, within, beyond⟩
    refine ⟨⟨opening, ⟨within, found⟩, opens⟩, fun paired => ?_⟩
    have inRange : (tokens.extract start stop)[index]? = some opening := by
      rw [getElem?_extract, if_pos within, found]
    obtain ⟨other, partners⟩ := paired.exists_partner inRange opens
    obtain ⟨partners, ends⟩ := (partners_extract_iff start stop).mp partners
    exact absurd (beyond _ partners) (Nat.not_le.mpr ends)

theorem OccursAt.unpaired_iff {part tokens : List Token} {start : Nat}
    (occurs : OccursAt part tokens start) (index : Nat) :
    Unpaired part .openParen index ↔ IsOpenAt tokens (start + index) (start + part.length) := by
  rw [← unpaired_extract_iff, occurs.extract]

/-- Behind a closing parenthesis without a partner none is open. -/
theorem leavesOpen_behind_closing {before : List Token} (balanced : Balanced before)
    {closing : Token} (closes : closing.kind = .closeParen) (after : List Token) :
    leavesOpen (before ++ closing :: after) = leavesOpen after := by
  have nothing : ∀ awaiting, opensBefore awaiting (closing :: before.reverse) =
      opensBefore awaiting [] := by
    intro awaiting
    have scanned := opensBefore_reverse_append ((isBalanced_iff _).mp balanced.isBalanced)
      (awaiting + 1) []
    rw [List.append_nil] at scanned
    simpa [opensBefore, closes] using scanned
  have scanned := opensBefore_append_congr nothing after.reverse 0
  rw [List.append_nil] at scanned
  rwa [leavesOpen, List.reverse_append, List.reverse_cons, List.append_assoc]

/-- Behind a closing parenthesis without a partner stand all opening ones without a partner. -/
theorem exists_unpaired_behind_closing {before : List Token} (balanced : Balanced before)
    {closing : Token} (closes : closing.kind = .closeParen) (after : List Token) :
    (∃ index, Unpaired (before ++ closing :: after) .openParen index) ↔
      ∃ index, Unpaired after .openParen index := by
  have whole : OccursAt (before ++ closing :: after) (before ++ closing :: after) 0 :=
    ⟨[], [], by simp, rfl⟩
  have behind := whole.around.2
  have ends : 0 + before.length + 1 + after.length = 0 + (before ++ closing :: after).length := by
    simp only [List.length_append, List.length_cons]
    omega
  simp only [behind.unpaired_iff, ends]
  constructor
  · rintro ⟨index, unpaired⟩
    -- The parentheses up to the closing one have partners or are closing themselves.
    have least := unpaired.length_le (.inl rfl) balanced
    have notClosing : index ≠ before.length := by
      rintro rfl
      obtain ⟨⟨token, found, opens⟩, -⟩ := unpaired
      rw [List.getElem?_append_right (Nat.le_refl _), Nat.sub_self] at found
      cases found
      cases closes.symm.trans opens
    obtain ⟨offset, rfl⟩ := Nat.exists_eq_add_of_le
      (Nat.succ_le_of_lt (Nat.lt_of_le_of_ne least notClosing.symm))
    have isOpen := (whole.unpaired_iff _).mp unpaired
    refine ⟨offset, ?_⟩
    simpa [Nat.succ_eq_add_one] using isOpen
  · rintro ⟨index, isOpen⟩
    refine ⟨0 + before.length + 1 + index, (whole.unpaired_iff _).mpr ?_⟩
    rwa [Nat.zero_add (0 + before.length + 1 + index)]

/-- A sequence leaves a parenthesis open exactly if one that it opens has no partner. -/
theorem leavesOpen_iff (tokens : List Token) :
    leavesOpen tokens = true ↔ ∃ index, Unpaired tokens .openParen index := by
  cases reached : depthAfter? 0 tokens with
  | some depth =>
    rw [leavesOpen_eq_of_depthAfter? reached, decide_eq_true_eq]
    cases leavesOpen_of_depthAfter? reached with
    | nothing balanced =>
      refine ⟨fun positive => absurd positive (Nat.lt_irrefl 0), ?_⟩
      rintro ⟨index, ⟨token, found, opens⟩, lacks⟩
      exact absurd (balanced.isPaired found (.inl opens)) lacks
    | @another outer front back opening before opens inside =>
      refine ⟨fun _ => ⟨front.length, ⟨opening, by simp, opens⟩, ?_⟩, fun _ => Nat.succ_pos outer⟩
      exact inside.not_isPaired_opening opens front
  | none =>
    obtain ⟨before, closing, after, rfl, closes, balanced⟩ := exists_unmatched_closing reached
    rw [leavesOpen_behind_closing balanced closes, leavesOpen_iff after,
      exists_unpaired_behind_closing balanced closes]
termination_by tokens.length

/-! ## Decisions about ranges -/

theorem leavesOpen_extract_iff (tokens : List Token) (first stop : Nat) :
    leavesOpen (tokens.extract first stop) = true ↔
      ∃ position, first ≤ position ∧ IsOpenAt tokens position stop := by
  simp only [leavesOpen_iff, unpaired_extract_iff]
  constructor
  · rintro ⟨index, isOpen⟩
    exact ⟨first + index, Nat.le_add_right .., isOpen⟩
  · rintro ⟨position, least, isOpen⟩
    obtain ⟨index, rfl⟩ := Nat.exists_eq_add_of_le least
    exact ⟨index, isOpen⟩

theorem isSome_enclosed?_extract_iff {tokens : List Token} (first : Nat) {last : Nat}
    (within : last < tokens.length) :
    (enclosed? (tokens.extract first (last + 1))).isSome = true ↔ Partners tokens first last := by
  rw [Option.isSome_iff_exists]
  constructor
  · rintro ⟨interior, inside⟩
    obtain ⟨opening, closing, split, opens, closes, balanced⟩ :=
      (enclosed?_eq_some_iff ..).mp inside
    have partners : Partners (tokens.extract first (last + 1)) 0 (interior.length + 1) :=
      ⟨[], opening, interior, closing, [], by simp [split], opens, closes,
        (isBalanced_iff_balanced _).mp balanced, rfl, by simp [Nat.add_comm]⟩
    have length := congrArg List.length split
    simp only [List.extract_eq_take_drop, List.length_take, List.length_drop, List.length_append,
      List.length_cons, List.length_nil] at length
    have ends : first + (interior.length + 1) = last := by omega
    have whole := ((partners_extract_iff ..).mp partners).1
    rwa [Nat.add_zero, ends] at whole
  · rintro ⟨before, opening, interior, closing, after, rfl, opens, closes, inside, rfl, rfl⟩
    have occurs : OccursAt (opening :: interior ++ [closing])
        (before ++ opening :: (interior ++ closing :: after)) before.length :=
      ⟨before, after, by simp, rfl⟩
    have range := occurs.extract
    refine ⟨interior, (enclosed?_eq_some_iff ..).mpr
      ⟨opening, closing, ?_, opens, closes, inside.isBalanced⟩⟩
    rw [← range]
    congr 1
    simp only [List.length_append, List.length_cons, List.length_nil]
    omega

/-- The token at the index is an operator of the range from `first` to `last`, and no parenthesis
that the range opens is open there. -/
structure IsOutside (tokens : List Token) (first last : Nat) (operator : Token) (index : Nat) :
    Prop where
  within : first ≤ index ∧ index ≤ last
  found : tokens[index]? = some operator
  isOperator : operator.kind.isOperator = true
  outside : ∀ position, first ≤ position → ¬IsOpenAt tokens position index

theorem mem_exposedOperators_extract_iff (tokens : List Token) (first last : Nat) (operator : Token)
    (index : Nat) :
    (operator, index) ∈ exposedOperators (tokens.extract first (last + 1)) ↔
      IsOutside tokens first last operator (first + index) := by
  have before (inside : first + index < last + 1) :
      (tokens.extract first (last + 1)).take index = tokens.extract first (first + index) := by
    have range := extract_extract tokens first (last + 1) 0 (Nat.le_of_lt inside)
    rwa [List.extract_eq_take_drop, List.drop_zero, Nat.sub_zero, Nat.add_zero] at range
  rw [mem_exposedOperators_iff, getElem?_extract, Option.ite_none_right_eq_some]
  constructor
  · rintro ⟨⟨inside, found⟩, isOperator, closed⟩
    rw [before inside, ← Bool.not_eq_true, leavesOpen_extract_iff] at closed
    exact ⟨⟨Nat.le_add_right .., Nat.le_of_lt_succ inside⟩, found, isOperator,
      fun position least isOpen => closed ⟨position, least, isOpen⟩⟩
  · rintro ⟨⟨-, inside⟩, found, isOperator, outside⟩
    have inside := Nat.lt_succ_of_le inside
    refine ⟨⟨inside, found⟩, isOperator, ?_⟩
    rw [before inside, ← Bool.not_eq_true, leavesOpen_extract_iff]
    exact fun ⟨position, least, isOpen⟩ => outside position least isOpen

/-- In a balanced range an operator is outside exactly if it does not stand between partners. -/
theorem outside_iff_of_balanced {tokens : List Token} {first last index : Nat} {operator : Token}
    (balanced : Balanced (tokens.extract first (last + 1)))
    (within : first ≤ index ∧ index ≤ last) (found : tokens[index]? = some operator)
    (isOperator : operator.kind.isOperator = true) :
    (∀ position, first ≤ position → ¬IsOpenAt tokens position index) ↔
      ∀ opening closing, first ≤ opening → closing ≤ last → Partners tokens opening closing →
        ¬(opening < index ∧ index < closing) := by
  constructor
  · rintro outside opening closing least - partners ⟨before, after⟩
    refine outside opening least ⟨partners.opens, before, fun other again => ?_⟩
    exact Nat.le_of_lt (partners.unique again ▸ after)
  · rintro apart position least ⟨⟨opening, opened, opens⟩, before, beyond⟩
    obtain ⟨offset, rfl⟩ := Nat.exists_eq_add_of_le least
    have inRange : (tokens.extract first (last + 1))[offset]? = some opening := by
      rw [getElem?_extract, if_pos (by omega), opened]
    have paired := balanced.isPaired inRange (.inl opens)
    obtain ⟨other, inside⟩ := paired.exists_partner inRange opens
    obtain ⟨partners, ends⟩ := (partners_extract_iff ..).mp inside
    have notClosing : index ≠ first + other := by
      rintro rfl
      obtain ⟨closing, same, closes⟩ := partners.closes
      cases found.symm.trans same
      exact (TokenKind.not_paren_of_isOperator isOperator).2 closes
    have behind := Nat.lt_of_le_of_ne (beyond _ partners) notClosing
    exact apart _ _ least (Nat.le_of_lt_succ ends) partners ⟨before, behind⟩

/-- A range is split at the operator outside parentheses that binds loosest, or at the last one of
these. -/
theorem dominantOperator?_extract_eq_some_iff (tokens : List Token) (first last : Nat)
    (operator : Token) (index : Nat) :
    dominantOperator? (tokens.extract first (last + 1)) = some (operator, index) ↔
      IsOutside tokens first last operator (first + index) ∧
        ∀ other place, IsOutside tokens first last other place →
          operator.precedence ≤ other.precedence ∧
            (operator.precedence = other.precedence → place ≤ first + index) := by
  rw [dominantOperator?_eq_some_iff, mem_exposedOperators_extract_iff]
  refine and_congr_right fun _ => ⟨fun preferred other place outside => ?_, ?_⟩
  · obtain ⟨offset, rfl⟩ := Nat.exists_eq_add_of_le outside.within.1
    have compared := preferred (other, offset) ((mem_exposedOperators_extract_iff ..).mpr outside)
    simp only [Preferred] at compared
    omega
  · rintro loosest ⟨other, offset⟩ exposed
    have compared := loosest other _ ((mem_exposedOperators_extract_iff ..).mp exposed)
    simp only [Preferred]
    omega

theorem dominantOperator?_extract_eq_none_iff (tokens : List Token) (first last : Nat) :
    dominantOperator? (tokens.extract first (last + 1)) = none ↔
      ∀ operator index, ¬IsOutside tokens first last operator index := by
  rw [dominantOperator?_eq_none_iff, List.eq_nil_iff_forall_not_mem]
  constructor
  · intro none operator index outside
    obtain ⟨offset, rfl⟩ := Nat.exists_eq_add_of_le outside.within.1
    exact none (operator, offset) ((mem_exposedOperators_extract_iff ..).mpr outside)
  · rintro none ⟨operator, offset⟩ exposed
    exact none _ _ ((mem_exposedOperators_extract_iff ..).mp exposed)

/-- The scans of a range find what partners are in the whole sequence: a parenthesis is left open
before an index if its partner, if it has one, is not before the index; a range is enclosed if its
first and its last token are partners; and a range is split at the operator outside all parentheses
that it opens which binds loosest, or at the last one of these. In a balanced range the operators
outside are those that do not stand between partners. -/
theorem scans_find_partners (tokens : List Token) :
    (∀ first index, leavesOpen (tokens.extract first index) = true ↔
      ∃ position, first ≤ position ∧ position < index ∧
        (∃ token, tokens[position]? = some token ∧ token.kind = .openParen) ∧
          ∀ partner, Partners tokens position partner → ¬partner < index) ∧
    (∀ first last, last < tokens.length →
      ((enclosed? (tokens.extract first (last + 1))).isSome = true ↔ Partners tokens first last)) ∧
    (∀ first last operator index,
      dominantOperator? (tokens.extract first (last + 1)) = some (operator, index) ↔
        IsOutside tokens first last operator (first + index) ∧
          ∀ other place, IsOutside tokens first last other place →
            operator.precedence ≤ other.precedence ∧
              (operator.precedence = other.precedence → place ≤ first + index)) ∧
    (∀ first last, dominantOperator? (tokens.extract first (last + 1)) = none ↔
      ∀ operator index, ¬IsOutside tokens first last operator index) ∧
    ∀ first last operator index, Balanced (tokens.extract first (last + 1)) →
      (IsOutside tokens first last operator index ↔
        (first ≤ index ∧ index ≤ last) ∧ tokens[index]? = some operator ∧
          operator.kind.isOperator = true ∧
            ∀ opening closing, first ≤ opening → closing ≤ last → Partners tokens opening closing →
              ¬(opening < index ∧ index < closing)) := by
  refine ⟨?nested, fun first last within => isSome_enclosed?_extract_iff first within,
    dominantOperator?_extract_eq_some_iff tokens, dominantOperator?_extract_eq_none_iff tokens,
    ?apart⟩
  case nested =>
    intro first index
    simp only [leavesOpen_extract_iff, IsOpenAt, Nat.not_lt]
    constructor
    · rintro ⟨position, least, opens, before, beyond⟩
      exact ⟨position, least, before, opens, beyond⟩
    · rintro ⟨position, least, before, opens, beyond⟩
      exact ⟨position, least, opens, before, beyond⟩
  case apart =>
    intro first last operator index balanced
    constructor
    · rintro ⟨within, found, isOperator, outside⟩
      exact ⟨within, found, isOperator,
        (outside_iff_of_balanced balanced within found isOperator).mp outside⟩
    · rintro ⟨within, found, isOperator, apart⟩
      exact ⟨within, found, isOperator,
        (outside_iff_of_balanced balanced within found isOperator).mpr apart⟩

end GuestProbe
