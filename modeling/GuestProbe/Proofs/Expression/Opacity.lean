import GuestProbe.Proofs.Expression.Stratification

/-! # Opaque parts

A part of a sequence is opaque if its parentheses pair up and all of its operators stand inside them
(`IsOpaque`), like an operand or a sequence in parentheses. No division looks into such a part until
it is all that is left: the operators outside of it are found as if it were not there
(`dominantOperator?_around`). So a sequence that has a word evaluates each opaque part, and keeps
its word if another opaque part with the same word takes that place (`Environment.value_around`).

This needs neither an expression around the part nor precedences that are those of the kinds.
`run_group_opaque` states it for sequences in parentheses.
-/

namespace GuestProbe

/-- The tokens look like an operand from outside. -/
structure IsOpaque (part : List Token) : Prop where
  more : part ≠ []
  balanced : isBalanced part = true
  hidden : exposedOperators part = []

theorem isOpaque_operand {token : Token} (isOperand : token.kind.isOperand = true) :
    IsOpaque [token] := by
  obtain ⟨notOperator, notOpen, notClose⟩ := TokenKind.of_isOperand isOperand
  refine ⟨List.cons_ne_nil token [], (isBalanced_cons_iff notOpen notClose []).mpr rfl, ?_⟩
  rw [exposedOperators, List.filter_eq_nil_iff]
  simp [notOperator]

theorem isOpaque_grouped {opening closing : Token} {inside : List Token}
    (opens : opening.kind = .openParen) (closes : closing.kind = .closeParen)
    (balanced : isBalanced inside = true) : IsOpaque (opening :: inside ++ [closing]) :=
  ⟨by simp, isBalanced_grouped opens closes balanced,
    exposedOperators_grouped opens closes balanced⟩

/-! ## Divisions around an opaque part -/

/-- The index of a token after a part of the given length has been put in at a position. -/
def indexAround (position length index : Nat) : Nat :=
  if index < position then index else index + length

theorem exists_eq_indexAround {position length index : Nat}
    (outside : ¬(position ≤ index ∧ index < position + length)) :
    ∃ original, index = indexAround position length original := by
  by_cases earlier : index < position
  · exact ⟨index, (if_pos earlier).symm⟩
  · refine ⟨index - length, ?_⟩
    rw [indexAround, if_neg (by omega)]
    omega

section Around

variable {part before after : List Token}

theorem getElem?_indexAround (before part after : List Token) (original : Nat) :
    (before ++ (part ++ after))[indexAround before.length part.length original]? =
      (before ++ after)[original]? := by
  rw [indexAround]
  split
  · next inBefore => rw [List.getElem?_append_left inBefore, List.getElem?_append_left inBefore]
  · next fromAfter =>
    obtain ⟨later, rfl⟩ := Nat.exists_eq_add_of_le (Nat.not_lt.mp fromAfter)
    rw [Nat.add_assoc, Nat.add_comm later]
    simp only [List.getElem?_append_right (Nat.le_add_right ..), Nat.add_sub_cancel_left]

/-- Putting in a balanced part does not change what is open before a token. -/
theorem leavesOpen_take_indexAround (balanced : isBalanced part = true)
    (before after : List Token) (original : Nat) :
    leavesOpen ((before ++ (part ++ after)).take
        (indexAround before.length part.length original)) =
      leavesOpen ((before ++ after).take original) := by
  rw [indexAround]
  split
  · next inBefore =>
    rw [List.take_append_of_le_length (Nat.le_of_lt inBefore),
      List.take_append_of_le_length (Nat.le_of_lt inBefore)]
  · next fromAfter =>
    obtain ⟨later, rfl⟩ := Nat.exists_eq_add_of_le (Nat.not_lt.mp fromAfter)
    rw [Nat.add_assoc, Nat.add_comm later]
    simp only [List.take_length_add_append, leavesOpen_around balanced]

/-- A token of an opaque part that is exposed in the whole sequence would be exposed in the part. -/
theorem not_exposed_of_inside (hides : IsOpaque part) {operator : Token} {inside : Nat}
    (inPart : inside < part.length) :
    (operator, before.length + inside) ∉ exposedOperators (before ++ (part ++ after)) := by
  intro exposed
  obtain ⟨found, isOperator, closed⟩ := (mem_exposedOperators_iff ..).mp exposed
  rw [List.getElem?_append_right (Nat.le_add_right ..), Nat.add_sub_cancel_left,
    List.getElem?_append_left inPart] at found
  rw [List.take_length_add_append, List.take_append_of_le_length (Nat.le_of_lt inPart)] at closed
  have closedPart : leavesOpen (part.take inside) = false := by
    apply Bool.eq_false_iff.mpr
    intro opens
    rw [leavesOpen_append opens before] at closed
    cases closed
  have exposedInPart := (mem_exposedOperators_iff ..).mpr ⟨found, isOperator, closedPart⟩
  rw [hides.hidden] at exposedInPart
  cases exposedInPart

/-- The exposed operators around an opaque part are those of the sequence without the part. -/
theorem mem_exposedOperators_around_iff (hides : IsOpaque part) (operator : Token) (index : Nat) :
    (operator, index) ∈ exposedOperators (before ++ (part ++ after)) ↔
      ∃ original, (operator, original) ∈ exposedOperators (before ++ after) ∧
        index = indexAround before.length part.length original := by
  have moved (original : Nat) :
      (operator, indexAround before.length part.length original) ∈
          exposedOperators (before ++ (part ++ after)) ↔
        (operator, original) ∈ exposedOperators (before ++ after) := by
    rw [mem_exposedOperators_iff, mem_exposedOperators_iff, getElem?_indexAround,
      leavesOpen_take_indexAround hides.balanced]
  constructor
  · intro exposed
    by_cases within : before.length ≤ index ∧ index < before.length + part.length
    · obtain ⟨inside, rfl⟩ := Nat.exists_eq_add_of_le within.1
      exact absurd exposed (not_exposed_of_inside hides (by omega))
    · obtain ⟨original, rfl⟩ := exists_eq_indexAround within
      exact ⟨original, (moved original).mp exposed, rfl⟩
  · rintro ⟨original, exposed, rfl⟩
    exact (moved original).mpr exposed

/-- The dominant operator around an opaque part is that of the sequence without the part. -/
theorem dominantOperator?_around (hides : IsOpaque part) :
    dominantOperator? (before ++ (part ++ after)) =
      (dominantOperator? (before ++ after)).map fun (operator, index) =>
        (operator, indexAround before.length part.length index) := by
  cases dominant : dominantOperator? (before ++ after) with
  | none =>
    have nothing := (dominantOperator?_eq_none_iff _).mp dominant
    refine (dominantOperator?_eq_none_iff _).mpr (List.eq_nil_iff_forall_not_mem.mpr ?_)
    rintro ⟨operator, index⟩ exposed
    obtain ⟨original, among, -⟩ := (mem_exposedOperators_around_iff hides ..).mp exposed
    rw [nothing] at among
    cases among
  | some chosen =>
    obtain ⟨operator, index⟩ := chosen
    obtain ⟨exposed, preferred⟩ := (dominantOperator?_eq_some_iff ..).mp dominant
    refine (dominantOperator?_eq_some_iff ..).mpr ⟨?_, ?_⟩
    · exact (mem_exposedOperators_around_iff hides ..).mpr ⟨index, exposed, rfl⟩
    · rintro ⟨other, position⟩ exposedOther
      obtain ⟨original, among, rfl⟩ := (mem_exposedOperators_around_iff hides ..).mp exposedOther
      have compared := preferred _ among
      simp only [Preferred, indexAround] at compared ⊢
      split <;> split <;> omega

theorem exists_of_dominantOperator?_around (hides : IsOpaque part) {operator : Token} {index : Nat}
    (dominant : dominantOperator? (before ++ (part ++ after)) = some (operator, index)) :
    ∃ original, index = indexAround before.length part.length original ∧
      ∀ other, IsOpaque other → dominantOperator? (before ++ (other ++ after)) =
        some (operator, indexAround before.length other.length original) := by
  rw [dominantOperator?_around hides] at dominant
  obtain ⟨⟨chosen, original⟩, found, same⟩ := Option.map_eq_some_iff.mp dominant
  cases same
  refine ⟨original, rfl, fun other hidesOther => ?_⟩
  rw [dominantOperator?_around hidesOther, found, Option.map_some]

/-- Parentheses around a sequence enclose an opaque part of it, unless it is the whole sequence. -/
theorem divide_enclosed_around {interior : List Token} (hides : IsOpaque part)
    (more : ¬(before = [] ∧ after = [])) (balanced : isBalanced (before ++ (part ++ after)) = true)
    (divided : divide (before ++ (part ++ after)) = .enclosed interior) :
    ∃ left right, interior = left ++ (part ++ right) ∧ isBalanced interior = true ∧
      ∀ other, IsOpaque other →
        divide (before ++ (other ++ after)) = .enclosed (left ++ (other ++ right)) := by
  have inside := divide_fits (before ++ (part ++ after))
  rw [divided] at inside
  change enclosed? _ = _ at inside
  cases before with
  | nil =>
    have separate := enclosed?_append_eq_none hides.more (fun none => more ⟨rfl, none⟩)
      hides.balanced
    cases separate.symm.trans inside
  | cons first left =>
    rcases List.eq_nil_or_concat after with rfl | ⟨right, last, rfl⟩
    · have balancedBefore : isBalanced (first :: left) = true := by
        have whole := (isBalanced_around_iff hides.balanced (first :: left) []).mp balanced
        rwa [List.append_nil] at whole
      rw [List.append_nil] at inside
      have separate := enclosed?_append_eq_none (List.cons_ne_nil first left) hides.more
        balancedBefore
      cases separate.symm.trans inside
    have regrouped (middle : List Token) : first :: left ++ (middle ++ right.concat last) =
        first :: (left ++ (middle ++ right)) ++ [last] := by
      simp
    obtain ⟨opening, closing, shape, opens, closes, within⟩ := (enclosed?_eq_some_iff ..).mp inside
    rw [regrouped] at shape
    obtain ⟨ends, same⟩ := List.append_inj' shape rfl
    cases ends
    cases same
    refine ⟨left, right, rfl, within, fun other hidesOther => ?_⟩
    rw [regrouped]
    apply divide_grouped opens closes
    rw [isBalanced_around_iff hidesOther.balanced]
    exact (isBalanced_around_iff hides.balanced left right).mp within

/-- A prefix operator that leads a sequence stands before an opaque part of it. -/
theorem divide_leading_around {first : Token} {rest : List Token} {unary : UnaryOperator}
    (hides : IsOpaque part) (divided : divide (before ++ (part ++ after)) = .leading first rest)
    (stands : first.kind.unaryOperator? = some unary) :
    ∃ left, before = first :: left ∧ rest = left ++ (part ++ after) ∧
      ∀ other, IsOpaque other →
        divide (before ++ (other ++ after)) = .leading first (left ++ (other ++ after)) := by
  have fits := divide_fits (before ++ (part ++ after))
  rw [divided] at fits
  obtain ⟨shape, operator, index, dominant, leads⟩ := fits
  obtain ⟨isOperator, -, -, notOpen, -⟩ := TokenKind.of_unaryOperator? stands
  cases before with
  | nil =>
    -- the first token would be exposed in the part
    obtain ⟨head, tail, rfl⟩ := List.exists_cons_of_ne_nil hides.more
    cases shape
    have exposed : (first, 0) ∈ exposedOperators (first :: tail) :=
      (mem_exposedOperators_iff ..).mpr ⟨rfl, isOperator, rfl⟩
    rw [hides.hidden] at exposed
    cases exposed
  | cons head left =>
    cases shape
    refine ⟨left, rfl, rfl, fun other hidesOther => ?_⟩
    obtain ⟨original, rfl, dominantAround⟩ := exists_of_dominantOperator?_around hides dominant
    refine divide_of_leading notOpen ?_ (dominantAround other hidesOther) (leads.imp_left ?_)
    · simp [hidesOther.more]
    · simp only [indexAround, List.length_cons]
      split
      · exact id
      · omega

/-- A sequence is split before or after an opaque part of it. -/
theorem divide_around_around {left right : List Token} {operator : Token} (hides : IsOpaque part)
    (balanced : isBalanced (before ++ (part ++ after)) = true)
    (divided : divide (before ++ (part ++ after)) = .around left operator right) :
    (∃ gap, right = gap ++ (part ++ after) ∧ ∀ other, IsOpaque other →
        divide (before ++ (other ++ after)) = .around left operator (gap ++ (other ++ after))) ∨
      ∃ gap, left = before ++ (part ++ gap) ∧ ∀ other, IsOpaque other →
        divide (before ++ (other ++ after)) =
          .around (before ++ (other ++ gap)) operator right := by
  obtain ⟨balancedLeft, -⟩ := isBalanced_of_divide_around divided balanced
  have fits := divide_fits (before ++ (part ++ after))
  rw [divided] at fits
  obtain ⟨shape, more, dominant, notUnary⟩ := fits
  obtain ⟨original, position, dominantAround⟩ := exists_of_dominantOperator?_around hides dominant
  rw [indexAround] at position
  split at position
  case isTrue inBefore =>
    left
    have fromLeft : left ++ [operator] <+: left ++ operator :: right := ⟨right, by simp⟩
    have fromBefore : before <+: left ++ operator :: right := ⟨part ++ after, shape⟩
    obtain ⟨gap, rfl⟩ := List.prefix_of_prefix_length_le fromLeft fromBefore
      (by rw [List.length_append, List.length_singleton]; omega)
    have regrouped (middle : List Token) : left ++ [operator] ++ gap ++ (middle ++ after) =
        left ++ operator :: (gap ++ (middle ++ after)) := by
      simp
    rw [regrouped] at shape
    have same := List.append_cancel_left shape
    cases same
    refine ⟨gap, rfl, fun other hidesOther => ?_⟩
    have dominantOther := dominantAround other hidesOther
    rw [indexAround, if_pos inBefore, ← position, regrouped] at dominantOther
    rw [regrouped]
    exact divide_of_around more balancedLeft dominantOther notUnary
  case isFalse behind =>
    right
    have fromPart : before ++ part <+: left ++ operator :: right := ⟨after, by simp [shape]⟩
    have fromLeft : left <+: left ++ operator :: right := List.prefix_append ..
    obtain ⟨gap, rfl⟩ := List.prefix_of_prefix_length_le fromPart fromLeft
      (by rw [List.length_append]; omega)
    have same : after = gap ++ operator :: right := by simpa using shape
    subst same
    refine ⟨gap, List.append_assoc .., fun other hidesOther => ?_⟩
    have regrouped : before ++ (other ++ (gap ++ operator :: right)) =
        before ++ (other ++ gap) ++ operator :: right := by
      simp
    have dominantOther := dominantAround other hidesOther
    have positionOther : indexAround before.length other.length original =
        (before ++ (other ++ gap)).length := by
      rw [indexAround, if_neg behind]
      simp only [List.length_append] at position ⊢
      omega
    rw [regrouped, positionOther] at dominantOther
    rw [regrouped]
    refine divide_of_around ?_ ?_ dominantOther notUnary
    · simp [hidesOther.more]
    · rw [List.append_assoc, isBalanced_around_iff hides.balanced] at balancedLeft
      exact (isBalanced_around_iff hidesOther.balanced before gap).mpr balancedLeft

end Around

/-! ## Words around an opaque part -/

/-- A sequence with a word evaluates an opaque part of it, and has the same word if another opaque
part with the same word takes its place. -/
theorem Environment.value_around {environment : Environment} {part before after : List Token}
    {word : UInt32} (hides : IsOpaque part)
    (balanced : isBalanced (before ++ (part ++ after)) = true)
    (value : environment.value (before ++ (part ++ after)) = .ok word) :
    ∃ inner, environment.value part = .ok inner ∧
      ∀ other, IsOpaque other → environment.value other = .ok inner →
        environment.value (before ++ (other ++ after)) = .ok word := by
  generalize whole : before ++ (part ++ after) = tokens at balanced value
  induction tokens using division_induction generalizing before after word with
  | step tokens parts =>
    subst whole
    by_cases alone : before = [] ∧ after = []
    · obtain ⟨rfl, rfl⟩ := alone
      simp only [List.nil_append, List.append_nil] at value ⊢
      exact ⟨word, value, fun other _ same => same⟩
    rw [environment.value_eq] at value
    cases divided : divide (before ++ (part ++ after)) with
    | nothing => rw [divided] at value; cases value
    | operatorless first => rw [divided] at value; cases value
    | single token =>
      have fits := divide_fits (before ++ (part ++ after))
      rw [divided] at fits
      have length := congrArg List.length fits
      have morePart := List.length_pos_iff.mpr hides.more
      simp only [List.length_append, List.length_singleton] at length
      exact absurd ⟨List.length_eq_zero_iff.mp (by omega), List.length_eq_zero_iff.mp (by omega)⟩
        alone
    | enclosed interior =>
      rw [divided] at value parts
      obtain ⟨left, right, rfl, within, dividedAround⟩ :=
        divide_enclosed_around hides alone balanced divided
      obtain ⟨inner, valuePart, replaced⟩ := parts _ List.mem_cons_self rfl within value
      refine ⟨inner, valuePart, fun other hidesOther same => ?_⟩
      rw [environment.value_eq, dividedAround other hidesOther]
      exact replaced other hidesOther same
    | leading first rest =>
      rw [divided] at value parts
      simp only [valueOfParts] at value
      cases stands : first.kind.unaryOperator? with
      | none => rw [stands] at value; cases value
      | some unary =>
        rw [stands] at value
        obtain ⟨argument, valueRest, applied⟩ := exists_of_bind_eq_ok value
        obtain ⟨left, rfl, rfl, dividedAround⟩ := divide_leading_around hides divided stands
        obtain ⟨-, -, -, notOpen, notClose⟩ := TokenKind.of_unaryOperator? stands
        have balancedRest := (isBalanced_cons_iff notOpen notClose _).mp balanced
        obtain ⟨inner, valuePart, replaced⟩ :=
          parts _ List.mem_cons_self rfl balancedRest valueRest
        refine ⟨inner, valuePart, fun other hidesOther same => ?_⟩
        rw [environment.value_eq, dividedAround other hidesOther]
        simp only [valueOfParts, stands, replaced other hidesOther same]
        exact applied
    | around left operator right =>
      obtain ⟨balancedLeft, balancedRight⟩ := isBalanced_of_divide_around divided balanced
      rw [divided] at value parts
      obtain ⟨leftWord, valueLeft, valueRest⟩ := exists_of_bind_eq_ok value
      obtain ⟨rightWord, valueRight, applied⟩ := exists_of_bind_eq_ok valueRest
      rcases divide_around_around hides balanced divided with
        ⟨gap, rfl, dividedAround⟩ | ⟨gap, rfl, dividedAround⟩
      · obtain ⟨inner, valuePart, replaced⟩ :=
          parts _ (by simp [Division.parts]) rfl balancedRight valueRight
        refine ⟨inner, valuePart, fun other hidesOther same => ?_⟩
        rw [environment.value_eq, dividedAround other hidesOther]
        simp only [valueOfParts, valueLeft, replaced other hidesOther same]
        exact applied
      · obtain ⟨inner, valuePart, replaced⟩ :=
          parts _ List.mem_cons_self rfl balancedLeft valueLeft
        refine ⟨inner, valuePart, fun other hidesOther same => ?_⟩
        rw [environment.value_eq, dividedAround other hidesOther]
        simp only [valueOfParts, valueRight, replaced other hidesOther same]
        exact applied

/-! ## Sequences in parentheses -/

namespace Environment

variable {environment : Environment}

theorem value_singleton (token : Token) :
    environment.value [token] = (environment.operand token).outcome := by
  rw [value_eq]
  rfl

/-- Parentheses around a balanced sequence do not change its outcome. -/
theorem outcome_run_grouped {opening closing : Token} {inside : List Token}
    (opens : opening.kind = .openParen) (closes : closing.kind = .closeParen)
    (balanced : isBalanced inside = true) :
    (environment.run (opening :: inside ++ [closing])).outcome =
      (environment.run inside).outcome := by
  have group := isBalanced_grouped opens closes balanced
  rw [outcome_run, outcome_run, (unpaired?_eq_none_iff _).mpr group,
    (unpaired?_eq_none_iff _).mpr balanced]
  change environment.value (opening :: inside ++ [closing]) = environment.value inside
  rw [value_eq, divide_grouped opens closes balanced]
  rfl

/-- The word of a whole sequence stays the same if an opaque part of it is replaced by one with the
same word. -/
theorem outcome_run_around {part other before after : List Token} {inner word : UInt32}
    (hides : IsOpaque part) (hidesOther : IsOpaque other)
    (value : environment.value part = .ok inner) (same : environment.value other = .ok inner)
    (result : (environment.run (before ++ part ++ after)).outcome = .ok word) :
    (environment.run (before ++ other ++ after)).outcome = .ok word := by
  rw [List.append_assoc, outcome_run_eq_ok_iff] at result ⊢
  obtain ⟨balanced, valueAround⟩ := result
  obtain ⟨evaluated, valuePart, replaced⟩ := value_around hides balanced valueAround
  cases value.symm.trans valuePart
  refine ⟨?_, replaced other hidesOther same⟩
  rw [isBalanced_around_iff hides.balanced] at balanced
  exact (isBalanced_around_iff hidesOther.balanced before after).mpr balanced

end Environment

/-- A sequence in parentheses with a word has the same word within them, and can be exchanged for
every operand with that word, whatever stands around it. A balanced sequence with an error has the
same error in parentheses, and so there is an error with whatever stands around these. -/
theorem run_group_opaque (environment : Environment) {opening closing : Token}
    (opens : opening.kind = .openParen) (closes : closing.kind = .closeParen)
    (inside : List Token) :
    let group := opening :: inside ++ [closing]
    (∀ word, (environment.run inside).outcome = .ok word →
      (environment.run group).outcome = .ok word ∧
        ∀ token, (environment.operand token).outcome = .ok word → ∀ before after result,
          (environment.run (before ++ group ++ after)).outcome = .ok result ↔
            (environment.run (before ++ [token] ++ after)).outcome = .ok result) ∧
      (isBalanced inside = true → ∀ error, (environment.run inside).outcome = .error error →
        (environment.run group).outcome = .error error ∧
          ∀ before after, ∃ other,
            (environment.run (before ++ group ++ after)).outcome = .error other) := by
  intro group
  constructor
  · intro word success
    obtain ⟨balanced, -⟩ := Environment.outcome_run_eq_ok_iff.mp success
    have grouped : (environment.run group).outcome = .ok word :=
      (Environment.outcome_run_grouped opens closes balanced).trans success
    refine ⟨grouped, fun token value before after result => ?_⟩
    obtain ⟨-, valueGroup⟩ := Environment.outcome_run_eq_ok_iff.mp grouped
    have hidesGroup : IsOpaque group := isOpaque_grouped opens closes balanced
    have hidesToken : IsOpaque [token] := isOpaque_operand (isOperand_of_value value)
    have valueToken := (Environment.value_singleton token).trans value
    exact ⟨Environment.outcome_run_around hidesGroup hidesToken valueGroup valueToken,
      Environment.outcome_run_around hidesToken hidesGroup valueToken valueGroup⟩
  · intro balanced error failed
    have grouped : (environment.run group).outcome = .error error :=
      (Environment.outcome_run_grouped opens closes balanced).trans failed
    refine ⟨grouped, fun before after => ?_⟩
    cases result : (environment.run (before ++ group ++ after)).outcome with
    | error other => exact ⟨other, rfl⟩
    | ok word =>
      -- a word of the whole would need one of the part
      have hides : IsOpaque group := isOpaque_grouped opens closes balanced
      rw [List.append_assoc, Environment.outcome_run_eq_ok_iff] at result
      obtain ⟨inner, value, -⟩ := Environment.value_around hides result.1 result.2
      have groupOk := Environment.outcome_run_eq_ok_iff.mpr ⟨hides.balanced, value⟩
      cases groupOk.symm.trans grouped

/-- In `($ecx*($ecx+$edx))` the sum can be exchanged for `$eax`, although neither the tokens before
it nor those after it are balanced. A division by zero in its place is an error of the whole. -/
theorem run_group_opaque_in_product :
    let register (name : String) (offset : Nat) : Token := ⟨.register, 0, name, offset⟩
    let opening (offset : Nat) : Token := ⟨.openParen, 7, "(", offset⟩
    let closing (offset : Nat) : Token := ⟨.closeParen, 7, ")", offset⟩
    let before := [opening 0, register "ecx" 1, ⟨.star, 5, "*", 5⟩]
    let after := [closing 17]
    let sum := [register "ecx" 7, ⟨.plus, 4, "+", 11⟩, register "edx" 12]
    let quotient := [register "ecx" 7, ⟨.slash, 5, "/", 11⟩, register "ebx" 12]
    let environment : Environment :=
      ⟨fun name => if name = "ecx" then some 2 else if name = "edx" then some 3
          else if name = "ebx" then some 0 else some 5,
        fun address _ _ => .error (.fault address), fun _ => none, false⟩
    (environment.run sum).outcome = .ok 5 ∧
      (environment.operand (register "eax" 6)).outcome = .ok 5 ∧
      (environment.run (before ++ [register "eax" 6] ++ after)).outcome = .ok 10 ∧
      (environment.run (before ++ (opening 6 :: sum ++ [closing 16]) ++ after)).outcome = .ok 10 ∧
      isBalanced quotient = true ∧
      (environment.run quotient).outcome = .error (.divisionByZero 11) ∧
      ∃ error, (environment.run
        (before ++ (opening 6 :: quotient ++ [closing 16]) ++ after)).outcome = .error error := by
  intro register opening closing before after sum quotient environment
  have value : (environment.run sum).outcome = .ok 5 := by decide +kernel
  have valueToken : (environment.operand (register "eax" 6)).outcome = .ok 5 := rfl
  have product : (environment.run (before ++ [register "eax" 6] ++ after)).outcome = .ok 10 := by
    decide +kernel
  have failed : (environment.run quotient).outcome = .error (.divisionByZero 11) := by
    decide +kernel
  obtain ⟨exchanged, -⟩ :=
    run_group_opaque environment (rfl : (opening 6).kind = _) (rfl : (closing 16).kind = _) sum
  obtain ⟨-, refused⟩ :=
    run_group_opaque environment (rfl : (opening 6).kind = _) (rfl : (closing 16).kind = _) quotient
  exact ⟨value, valueToken, product,
    (((exchanged 5 value).2 _ valueToken before after 10).mpr product), rfl, failed,
    (refused rfl _ failed).2 before after⟩

end GuestProbe
